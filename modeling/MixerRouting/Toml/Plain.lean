import MixerRouting.Toml.Codec
import MixerRouting.Toml.Reader

/-!
# Plain texts as a library

The writer puts one field on each line. Numbers in double precision are written
in full, with a point always; half-way between two shortest decimals the larger
one is taken. Integers have at most 64 bits with their sign.
-/
namespace MixerRouting

namespace Toml

def numberStyle : NumberStyle := ⟨.up, none, true, "nan"⟩

def numberText? : TomlNumber → Option String
  | .size n => if (n : Int) ≤ maxInteger then some (toString n) else none
  | .double v => some (numberStyle.text .double v)

def line? (field : String × TomlNumber) : Option String :=
  (numberText? field.2).map fun text => field.1 ++ " = " ++ text ++ "\n"

def print? (fields : List (String × TomlNumber)) : Option String :=
  (fields.mapM line?).map String.join

/-- The value that fills a line behind its equals sign. -/
def value? (text : String) : Option TomlValue :=
  match readValue (2 * text.length + 2) maxDepth (text.toList ++ ['\n']) with
  | some (v, ['\n']) => some v
  | _ => none

/-- A size: an integer that is not negative. -/
def size? : TomlValue → Option Nat
  | .integer i => if 0 ≤ i then some i.toNat else none
  | _ => none

/-- A tolerance: any number. -/
def single? : TomlValue → Option Float32
  | .integer i => some (singleOfInt i)
  | .float v => some v.toSingle
  | _ => none

end Toml

def TomlCodec.plain : TomlCodec where
  numberText? := Toml.numberText?
  print? := Toml.print?
  value? := Toml.value?
  parse? := Toml.parse?
  size? := Toml.size?
  single? := Toml.single?

end MixerRouting
