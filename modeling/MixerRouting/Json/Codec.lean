import MixerRouting.Json.Value

/-!
# The library behind saved texts

Values are written and read by a library, and so are the records, the
alternatives and the numbers that they stand for. A `JsonCodec` is what saving
and loading use of such a library; which library it is does not matter to them.
-/
namespace MixerRouting

structure JsonCodec where
  /-- The text of a value. -/
  print : JsonValue → String
  /-- The value that a text spells. -/
  parse? : String → Option JsonValue
  /-- How a number in single precision is written. -/
  ofSingle : Float32 → JsonValue
  single? : JsonValue → Option Float32
  /-- A natural number up to a bound. -/
  nat? : (bound : Nat) → JsonValue → Option Nat
  bool? : JsonValue → Option Bool
  /-- A string, or what stands for the lack of one. -/
  optionalString? : JsonValue → Option (Option String)
  /-- The fields of a record in the order of `names`, `none` for a field that is missing. -/
  fields? : (names : List String) → JsonValue → Option (List (Option JsonValue))
  /-- The name of an alternative and the value that it carries. -/
  variant? : JsonValue → Option (String × Option JsonValue)
  /-- An alternative that carries nothing. -/
  unit? : JsonValue → Option String

end MixerRouting
