import MixerRouting.Json.Value
import MixerRouting.Number.Hex

/-!
# Compact JSON text

The one written form of a value: no blanks, fields in their order, and in
strings only the characters escaped that have to be. A string without
characters is written as the escape of a lone surrogate, so that every value
has a text.
-/
namespace MixerRouting.JsonValue

def escape (c : Char) : List Char :=
  if c = '"' then ['\\', '"']
  else if c = '\\' then ['\\', '\\']
  else if 0x20 ≤ c.toNat then [c]
  else if c.toNat = 0x08 then ['\\', 'b']
  else if c.toNat = 0x0c then ['\\', 'f']
  else if c = '\n' then ['\\', 'n']
  else if c = '\r' then ['\\', 'r']
  else if c = '\t' then ['\\', 't']
  else ['\\', 'u', '0', '0', Hex.char (c.toNat / 16), Hex.char (c.toNat % 16)]

def textChars : Option String → List Char
  | some s => '"' :: s.toList.flatMap escape ++ ['"']
  | none => "\"\\ud800\"".toList

mutual

def chars : JsonValue → List Char
  | .null => ['n', 'u', 'l', 'l']
  | .bool true => ['t', 'r', 'u', 'e']
  | .bool false => ['f', 'a', 'l', 's', 'e']
  | .number n => n.chars
  | .text s => textChars s
  | .array items => '[' :: itemChars items
  | .object fields => '\x7b' :: fieldChars fields

/-- The items of an array and its closing bracket. -/
def itemChars : List JsonValue → List Char
  | [] => [']']
  | [v] => chars v ++ [']']
  | v :: w :: rest => chars v ++ ',' :: itemChars (w :: rest)

/-- The fields of an object and its closing brace. -/
def fieldChars : List (Option String × JsonValue) → List Char
  | [] => ['\x7d']
  | [(name, v)] => textChars name ++ ':' :: chars v ++ ['\x7d']
  | (name, v) :: field :: rest =>
    textChars name ++ ':' :: chars v ++ ',' :: fieldChars (field :: rest)

end

def render (v : JsonValue) : String := String.ofList v.chars

end MixerRouting.JsonValue
