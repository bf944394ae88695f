import MixerRouting.Number.Numeral

/-!
# JSON values

A value keeps everything that a text says and nothing else: numbers stay
numerals, the fields of an object stay in the order in which they were
written, and a name may occur twice. What a repeated name or a fraction means
is for the readers of records.

A string is a sequence of characters, or `none` if its escapes name half of a
surrogate pair: such a text is well formed but no sequence of characters
spells it.
-/
namespace MixerRouting

inductive JsonValue where
  | null
  | bool (b : Bool)
  | number (n : Numeral)
  | text (s : Option String)
  | array (items : List JsonValue)
  | object (fields : List (Option String × JsonValue))
  deriving Inhabited

namespace JsonValue

/-- A number written as an integer. -/
def ofNat (n : Nat) : JsonValue := .number ⟨false, n, [], none⟩

def ofString (s : String) : JsonValue := .text (some s)

/-- An object with fields in the given order. -/
def record (fields : List (String × JsonValue)) : JsonValue :=
  .object (fields.map fun field => (some field.1, field.2))

/-- An object with one field: the form of an alternative that carries a value. -/
def tagged (tag : String) (value : JsonValue) : JsonValue := record [(tag, value)]

end JsonValue

end MixerRouting
