import MixerRouting.Toml.Value

/-!
# The library behind settings texts

Settings are written and read by a library. A `TomlCodec` is what settings files
use of such a library: tables of numbers are handed to its writer, and what its
reader finds in a text is taken for sizes and tolerances.
-/
namespace MixerRouting

/-- A number as it is handed to the writer. -/
inductive TomlNumber where
  | size (n : Nat)
  | double (v : FloatValue)

/-- The value that a number is in a text. -/
def TomlNumber.value : TomlNumber → TomlValue
  | .size n => .integer n
  | .double v => .float v

structure TomlCodec where
  /-- The text of a single number, if it has one. -/
  numberText? : TomlNumber → Option String
  /-- The text of a table of numbers, if each of them has one. -/
  print? : List (String × TomlNumber) → Option String
  /-- The value that a text is behind an equals sign. -/
  value? : String → Option TomlValue
  /-- The fields of a text. -/
  parse? : String → Option (List (String × TomlValue))
  /-- A value taken for a size. -/
  size? : TomlValue → Option Nat
  /-- A value taken for a number in single precision. -/
  single? : TomlValue → Option Float32

end MixerRouting
