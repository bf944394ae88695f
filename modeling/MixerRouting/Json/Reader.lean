import MixerRouting.Json.Value
import MixerRouting.Number.Hex

/-!
# Reading JSON text

The reader follows the grammar of JSON. Every step answers what it read and
the rest of the text, or `none` at the first character that fits nowhere. A
nested value is read with less fuel than the value around it; every character
is worth two units of it, which is more than any text can use.
-/
namespace MixerRouting.JsonValue

def isBlank (c : Char) : Bool := c = ' ' || c = '\n' || c = '\t' || c = '\r'

def skipBlanks (s : List Char) : List Char := s.dropWhile isBlank

/-- A row of at least one digit. -/
def readDigits (s : List Char) : Option (List Digit × List Char) :=
  match Digit.span s with
  | ([], _) => none
  | found => some found

/-- The whole part of a number: a single zero, or digits that do not start with one. -/
def readWhole : List Char → Option (Nat × List Char)
  | '0' :: rest =>
    match Digit.span rest with
    | ([], _) => some (0, rest)
    | _ => none
  | s => (readDigits s).map fun (ds, rest) => (Digit.value ds, rest)

def readFraction : List Char → Option (List Digit × List Char)
  | '.' :: rest => readDigits rest
  | s => some ([], s)

/-- The digits of an exponent, with or without a sign. -/
def readPower (s : List Char) : Option (Int × List Char) :=
  match s with
  | '-' :: rest => (readDigits rest).map fun (ds, rest) => (-(Digit.value ds : Int), rest)
  | '+' :: rest => (readDigits rest).map fun (ds, rest) => ((Digit.value ds : Int), rest)
  | _ => (readDigits s).map fun (ds, rest) => ((Digit.value ds : Int), rest)

def readExponent : List Char → Option (Option Int × List Char)
  | 'e' :: rest => (readPower rest).map fun (e, rest) => (some e, rest)
  | 'E' :: rest => (readPower rest).map fun (e, rest) => (some e, rest)
  | s => some (none, s)

def readNumeral (s : List Char) : Option (Numeral × List Char) := do
  let (negative, s) := match s with
    | '-' :: rest => (true, rest)
    | _ => (false, s)
  let (whole, s) ← readWhole s
  let (fraction, s) ← readFraction s
  let (exponent, s) ← readExponent s
  return (⟨negative, whole, fraction, exponent⟩, s)

/-- A piece of a string: a character, or sixteen bits given by a numeric escape. -/
inductive Piece where
  | char (c : Char)
  | unit (n : Nat)
  deriving DecidableEq, Repr

def simpleEscape? (c : Char) : Option Char :=
  if c = '"' ∨ c = '\\' ∨ c = '/' then some c
  else if c = 'b' then some '\x08'
  else if c = 'f' then some '\x0c'
  else if c = 'n' then some '\n'
  else if c = 'r' then some '\r'
  else if c = 't' then some '\t'
  else none

/-- The pieces of a string up to its closing quote. -/
def readPieces : List Char → Option (List Piece × List Char)
  | [] => none
  | '"' :: rest => some ([], rest)
  | '\\' :: 'u' :: a :: b :: c :: d :: rest => do
    let unit ← Hex.number? [a, b, c, d]
    let (pieces, rest) ← readPieces rest
    return (.unit unit :: pieces, rest)
  | '\\' :: e :: rest => do
    let c ← simpleEscape? e
    let (pieces, rest) ← readPieces rest
    return (.char c :: pieces, rest)
  | c :: rest => do
    guard (c ≠ '\\' ∧ 0x20 ≤ c.toNat)
    let (pieces, rest) ← readPieces rest
    return (.char c :: pieces, rest)

def isHighSurrogate (n : Nat) : Bool := 0xd800 ≤ n && n < 0xdc00

def isLowSurrogate (n : Nat) : Bool := 0xdc00 ≤ n && n < 0xe000

/-- The characters that pieces spell: two numeric escapes may name one character together. -/
def spell : List Piece → Option (List Char)
  | [] => some []
  | .char c :: rest => (spell rest).map (c :: ·)
  | .unit high :: .unit low :: rest =>
    if isHighSurrogate high then
      if isLowSurrogate low then
        (spell rest).map (Char.ofNat (0x10000 + (high - 0xd800) * 0x400 + (low - 0xdc00)) :: ·)
      else none
    else if isLowSurrogate high then none
    else (spell (.unit low :: rest)).map (Char.ofNat high :: ·)
  | .unit n :: rest =>
    if isHighSurrogate n || isLowSurrogate n then none
    else (spell rest).map (Char.ofNat n :: ·)

/-- A string after its opening quote. -/
def readText (s : List Char) : Option (Option String × List Char) :=
  (readPieces s).map fun (pieces, rest) => ((spell pieces).map String.ofList, rest)

mutual

def readValue : Nat → List Char → Option (JsonValue × List Char)
  | 0, _ => none
  | fuel + 1, s =>
    match skipBlanks s with
    | '\x7b' :: rest =>
      match skipBlanks rest with
      | '\x7d' :: rest => some (.object [], rest)
      | rest => (readFields fuel rest).map fun (fields, rest) => (.object fields, rest)
    | '[' :: rest =>
      match skipBlanks rest with
      | ']' :: rest => some (.array [], rest)
      | rest => (readItems fuel rest).map fun (items, rest) => (.array items, rest)
    | '"' :: rest => (readText rest).map fun (s, rest) => (.text s, rest)
    | 'n' :: 'u' :: 'l' :: 'l' :: rest => some (.null, rest)
    | 't' :: 'r' :: 'u' :: 'e' :: rest => some (.bool true, rest)
    | 'f' :: 'a' :: 'l' :: 's' :: 'e' :: rest => some (.bool false, rest)
    | rest => (readNumeral rest).map fun (n, rest) => (.number n, rest)

/-- The items of an array up to its closing bracket; at least one. -/
def readItems : Nat → List Char → Option (List JsonValue × List Char)
  | 0, _ => none
  | fuel + 1, s =>
    match readValue fuel s with
    | none => none
    | some (v, rest) =>
      match skipBlanks rest with
      | ']' :: rest => some ([v], rest)
      | ',' :: rest => (readItems fuel rest).map fun (items, rest) => (v :: items, rest)
      | _ => none

/-- The fields of an object up to its closing brace; at least one. -/
def readFields : Nat → List Char → Option (List (Option String × JsonValue) × List Char)
  | 0, _ => none
  | fuel + 1, s =>
    match skipBlanks s with
    | '"' :: rest =>
      match readText rest with
      | none => none
      | some (name, rest) =>
        match skipBlanks rest with
        | ':' :: rest =>
          match readValue fuel rest with
          | none => none
          | some (v, rest) =>
            match skipBlanks rest with
            | '\x7d' :: rest => some ([(name, v)], rest)
            | ',' :: rest =>
              (readFields fuel rest).map fun (fields, rest) => ((name, v) :: fields, rest)
            | _ => none
        | _ => none
    | _ => none

end

/-- The value that the whole text spells, blanks around it aside. -/
def parse? (text : String) : Option JsonValue :=
  match readValue (2 * text.length + 2) text.toList with
  | some (v, rest) => if (skipBlanks rest).isEmpty then some v else none
  | none => none

end MixerRouting.JsonValue
