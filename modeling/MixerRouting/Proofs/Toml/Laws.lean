import Mathlib.Data.List.Nodup
import MixerRouting.Proofs.Number.Nearest
import MixerRouting.Toml.Codec

/-!
# What is assumed of the library behind settings texts

Three things: that a table of numbers is written as one line for each field;
that texts are read as TOML 1.0 says, as far as lines of this kind are concerned,
with integers of 64 bits; and that the text of a finite number in double
precision reads back as that number. How such a number is written is left open,
and so is what is made of all other texts.
-/
namespace MixerRouting.TomlCodec

/-- The greatest integer of a text. -/
def maxSize : Nat := 2 ^ 63 - 1

/-- A key that stands in a text without quotes. -/
def isBareKey (key : String) : Bool :=
  !key.toList.isEmpty && key.toList.all fun ch => ch.isAlphanum || ch = '-' || ch = '_'

/-- Fields with different keys, none of which needs quotes. -/
structure Plain (fields : List (String × TomlNumber)) : Prop where
  keys : (fields.map Prod.fst).Nodup
  bare : ∀ field ∈ fields, isBareKey field.1 = true

/-- A field on a line of its own. -/
def line? (c : TomlCodec) (field : String × TomlNumber) : Option String :=
  (c.numberText? field.2).map fun text => field.1 ++ " = " ++ text ++ "\n"

/-- A field as it is read from its line. -/
def reread? (c : TomlCodec) (field : String × TomlNumber) : Option (String × TomlValue) :=
  ((c.numberText? field.2).bind c.value?).map fun v => (field.1, v)

structure Lawful (c : TomlCodec) : Prop where
  /-- One line is written for each field. -/
  print?_eq : ∀ fields, Plain fields → c.print? fields = (fields.mapM c.line?).map String.join
  /-- Integers are written in decimal digits, as far as there are such integers. -/
  numberText?_size : ∀ n, c.numberText? (.size n) = if n ≤ maxSize then some (toString n) else none
  numberText?_double : ∀ v, (c.numberText? (.double v)).isSome = true
  /-- Lines of which each can be read make up a text of all their fields. -/
  parse?_lines : ∀ fields lines read, Plain fields → fields.mapM c.line? = some lines →
    fields.mapM c.reread? = some read → c.parse? (String.join lines) = some read
  value?_size : ∀ n, n ≤ maxSize → c.value? (toString n) = some (.integer n)
  /-- No text has an integer above the greatest one. -/
  le_maxSize : ∀ text fields key i, c.parse? text = some fields →
    (key, TomlValue.integer i) ∈ fields → i ≤ maxSize
  /-- The text of a finite number in double precision reads back as that number. -/
  value?_double : ∀ negative units scale, FloatFormat.double.Holds units scale →
    (c.numberText? (.double (.finite negative units scale))).bind c.value? =
      some (.float (.finite negative units scale))
  /-- A size is an integer that is not negative. -/
  size?_eq_some_iff : ∀ v n, c.size? v = some n ↔ v = .integer (n : Nat)
  /-- A number in double precision is rounded to single precision. -/
  single?_float : ∀ v, c.single? (.float v) = some v.toSingle

end MixerRouting.TomlCodec
