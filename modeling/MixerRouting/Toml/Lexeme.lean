import MixerRouting.Number.Hex
import MixerRouting.Toml.Value

/-!
# Words of a settings text

Blanks, comments, strings, keys, numbers and dates of TOML 1.0. Every reader
answers what it read and the rest of the text, or `none` if the text is not
well formed there.
-/
namespace MixerRouting.Toml

/-! ### Blanks, comments and line ends -/

def isBlank (c : Char) : Bool := c = ' ' || c = '\t'

/-- The characters that may stand in comments and in strings of one line. -/
def isText (c : Char) : Bool := c = '\t' || (0x20 ≤ c.toNat && c.toNat ≠ 0x7f)

def skipBlanks (s : List Char) : List Char := s.dropWhile isBlank

/-- The rest of the text after a line end. -/
def readNewline : List Char → Option (List Char)
  | '\n' :: rest => some rest
  | '\r' :: '\n' :: rest => some rest
  | _ => none

/-- The rest of the text after blanks, a comment and the end of the line or of the text. -/
def endLine (s : List Char) : Option (List Char) :=
  let s := match skipBlanks s with
    | '#' :: rest => rest.dropWhile isText
    | s => s
  if s.isEmpty then some [] else readNewline s

/-- Skips blanks, line ends and comments; `comment` says whether the text starts in a comment. -/
def skipLines (comment : Bool) : List Char → List Char
  | [] => []
  | '\r' :: '\n' :: rest => skipLines false rest
  | c :: rest =>
    if c = '\n' then skipLines false rest
    else if comment then (if isText c then skipLines true rest else c :: rest)
    else if isBlank c then skipLines false rest
    else if c = '#' then skipLines true rest
    else c :: rest

/-! ### Strings -/

/-- The character that a row of hexadecimal digits names; surrogates are none. -/
def hexChar? (digits : List Char) : Option Char := do
  let code ← Hex.number? digits
  guard (code.isValidChar)
  return Char.ofNat code

def simpleEscape? (c : Char) : Option Char :=
  if c = '"' ∨ c = '\\' then some c
  else if c = 'b' then some '\x08'
  else if c = 'f' then some '\x0c'
  else if c = 'n' then some '\n'
  else if c = 'r' then some '\r'
  else if c = 't' then some '\t'
  else none

/-- Whether blanks lead to a line end. -/
def leadsToNewline (s : List Char) : Bool := (readNewline (skipBlanks s)).isSome

/-- The characters that the inside of a quoted string stands for. A line end is one character; a
backslash at the end of a line takes all blanks and line ends after it away, which `skipping`
remembers. -/
def unescape (skipping : Bool) : List Char → Option (List Char)
  | [] => some []
  | '\\' :: 'u' :: a :: b :: c :: d :: rest => do
    return (← hexChar? [a, b, c, d]) :: (← unescape false rest)
  | '\\' :: 'U' :: a :: b :: c :: d :: e :: f :: g :: h :: rest => do
    return (← hexChar? [a, b, c, d, e, f, g, h]) :: (← unescape false rest)
  | '\\' :: e :: rest =>
    if leadsToNewline (e :: rest) then unescape true (e :: rest)
    else do return (← simpleEscape? e) :: (← unescape false rest)
  | '\r' :: '\n' :: rest =>
    if skipping then unescape true rest else (unescape false rest).map ('\n' :: ·)
  | c :: rest =>
    if c = '\\' then none
    else if skipping ∧ (isBlank c ∨ c = '\n') then unescape true rest
    else (unescape false rest).map (c :: ·)

/-- Puts a character in front of what a reader of characters found. -/
def prepend (c : Char) (found : Option (List Char × List Char)) :
    Option (List Char × List Char) :=
  found.map fun (cs, rest) => (c :: cs, rest)

/-- The inside of a string in quotes up to the closing one, escapes as they stand. -/
def insideBasic : List Char → Option (List Char × List Char)
  | [] => none
  | '"' :: rest => some ([], rest)
  | '\\' :: '"' :: rest => prepend '\\' (prepend '"' (insideBasic rest))
  | '\\' :: '\\' :: rest => prepend '\\' (prepend '\\' (insideBasic rest))
  | c :: rest => if isText c then prepend c (insideBasic rest) else none

/-- The inside of a string in single quotes; it has no escapes. -/
def insideLiteral : List Char → Option (List Char × List Char)
  | [] => none
  | '\x27' :: rest => some ([], rest)
  | c :: rest => if isText c then prepend c (insideLiteral rest) else none

/-- The inside of a string in three quotes. Up to two quotes may stand right before the closing
ones and belong to the string. -/
def insideBasicLines : List Char → Option (List Char × List Char)
  | [] => none
  | '"' :: '"' :: '"' :: '"' :: '"' :: rest => some (['"', '"'], rest)
  | '"' :: '"' :: '"' :: '"' :: rest => some (['"'], rest)
  | '"' :: '"' :: '"' :: rest => some ([], rest)
  | '\\' :: '"' :: rest => prepend '\\' (prepend '"' (insideBasicLines rest))
  | '\\' :: '\\' :: rest => prepend '\\' (prepend '\\' (insideBasicLines rest))
  | '\r' :: '\n' :: rest => prepend '\r' (prepend '\n' (insideBasicLines rest))
  | c :: rest => if isText c ∨ c = '\n' then prepend c (insideBasicLines rest) else none

/-- The inside of a string in three single quotes; line ends count as one character. -/
def insideLiteralLines : List Char → Option (List Char × List Char)
  | [] => none
  | '\x27' :: '\x27' :: '\x27' :: '\x27' :: '\x27' :: rest => some (['\x27', '\x27'], rest)
  | '\x27' :: '\x27' :: '\x27' :: '\x27' :: rest => some (['\x27'], rest)
  | '\x27' :: '\x27' :: '\x27' :: rest => some ([], rest)
  | '\r' :: '\n' :: rest => prepend '\n' (insideLiteralLines rest)
  | c :: rest => if isText c ∨ c = '\n' then prepend c (insideLiteralLines rest) else none

/-- A line end right after three opening quotes does not count. -/
def dropNewline (s : List Char) : List Char := (readNewline s).getD s

/-- A quoted inside with its escapes resolved. -/
def resolve (found : Option (List Char × List Char)) : Option (String × List Char) := do
  let (inside, rest) ← found
  return (String.ofList (← unescape false inside), rest)

def verbatim (found : Option (List Char × List Char)) : Option (String × List Char) :=
  found.map fun (inside, rest) => (String.ofList inside, rest)

/-- A string of one line. -/
def readQuoted : List Char → Option (String × List Char)
  | '"' :: rest => resolve (insideBasic rest)
  | '\x27' :: rest => verbatim (insideLiteral rest)
  | _ => none

def readString : List Char → Option (String × List Char)
  | '"' :: '"' :: '"' :: rest => resolve (insideBasicLines (dropNewline rest))
  | '\x27' :: '\x27' :: '\x27' :: rest => verbatim (insideLiteralLines (dropNewline rest))
  | s => readQuoted s

/-! ### Keys -/

def isBare (c : Char) : Bool :=
  ('a' ≤ c && c ≤ 'z') || ('A' ≤ c && c ≤ 'Z') || ('0' ≤ c && c ≤ '9') || c = '-' || c = '_'

def readKeyPart (s : List Char) : Option (String × List Char) :=
  match s with
  | '"' :: _ | '\x27' :: _ => readQuoted s
  | _ =>
    match s.takeWhile isBare with
    | [] => none
    | bare => some (String.ofList bare, s.dropWhile isBare)

/-- A key with up to `parts` parts, points between them and blanks around each. -/
def readKey : Nat → List Char → Option (List String × List Char)
  | 0, _ => none
  | parts + 1, s => do
    let (part, rest) ← readKeyPart (skipBlanks s)
    match skipBlanks rest with
    | '.' :: rest => do
      let (others, rest) ← readKey parts rest
      return (part :: others, rest)
    | rest => return ([part], rest)

/-! ### Numbers -/

/-- What follows a digit: more digits, each with at most one underscore in front. -/
def readMoreDigits (digit? : Char → Option Nat) : List Char → Option (List Nat × List Char)
  | [] => some ([], [])
  | '_' :: c :: rest =>
    match digit? c with
    | some d => (readMoreDigits digit? rest).map fun (ds, rest) => (d :: ds, rest)
    | none => none
  | c :: rest =>
    match digit? c with
    | some d => (readMoreDigits digit? rest).map fun (ds, rest) => (d :: ds, rest)
    | none => if c = '_' then none else some ([], c :: rest)

/-- Digits with single underscores between them; at least one digit. -/
def readGrouped (digit? : Char → Option Nat) : List Char → Option (List Nat × List Char)
  | [] => none
  | c :: rest => do
    let d ← digit? c
    let (ds, rest) ← readMoreDigits digit? rest
    return (d :: ds, rest)

/-- A digit of a number system with up to sixteen digits. -/
def digitBelow? (base : Nat) (c : Char) : Option Nat := do
  let d ← Hex.value? c
  guard (d < base)
  return d

def readDecimal (s : List Char) : Option (List Digit × List Char) :=
  (readGrouped (digitBelow? 10) s).map fun (ds, rest) => (ds.map .last, rest)

/-- A decimal number that does not start with a needless zero. -/
def readWhole : List Char → Option (List Digit × List Char)
  | '0' :: rest => some ([.zero], rest)
  | s => readDecimal s

def minInteger : Int := -0x8000000000000000

def maxInteger : Int := 0x7fffffffffffffff

/-- An integer of 64 bits. -/
def integer? (i : Int) : Option TomlValue :=
  if minInteger ≤ i ∧ i ≤ maxInteger then some (.integer i) else none

def readBased (base : Nat) (s : List Char) : Option (TomlValue × List Char) := do
  let (ds, rest) ← readGrouped (digitBelow? base) s
  return (← integer? (ds.foldl (fun n d => base * n + d) 0 : Nat), rest)

def readSign : List Char → Bool × List Char
  | '-' :: rest => (true, rest)
  | '+' :: rest => (false, rest)
  | s => (false, s)

def readPower (s : List Char) : Option (Int × List Char) := do
  let (negative, s) := readSign s
  let (ds, rest) ← readDecimal s
  let e : Int := Digit.value ds
  return (if negative then -e else e, rest)

/-- A floating-point number in double precision. One that is too large is refused, unless it is
negative. -/
def float? (n : Numeral) : Option TomlValue :=
  match n.nearest .double with
  | .infinite false => none
  | v => some (.float v)

/-- A number in decimal digits. It is an integer without point and exponent. -/
def readPlain (s : List Char) : Option (TomlValue × List Char) := do
  let (negative, s) := readSign s
  let (whole, s) ← readWhole s
  let whole := Digit.value whole
  let (fraction, afterPoint) ← match s with
    | '.' :: rest => (readDecimal rest).map fun (ds, rest) => (some ds, rest)
    | _ => some (none, s)
  let (exponent, rest) ← match afterPoint with
    | 'e' :: rest | 'E' :: rest => (readPower rest).map fun (e, rest) => (some e, rest)
    | _ => some (none, afterPoint)
  if fraction.isNone ∧ exponent.isNone then
    return (← integer? (if negative then -whole else whole), rest)
  else return (← float? ⟨negative, whole, fraction.getD [], exponent⟩, rest)

def readNumber (s : List Char) : Option (TomlValue × List Char) :=
  match s with
  | '0' :: 'x' :: rest => readBased 16 rest
  | '0' :: 'o' :: rest => readBased 8 rest
  | '0' :: 'b' :: rest => readBased 2 rest
  | _ =>
    match readSign s with
    | (negative, 'i' :: 'n' :: 'f' :: rest) => some (.float (.infinite negative), rest)
    | (_, 'n' :: 'a' :: 'n' :: rest) => some (.float .nan, rest)
    | _ => readPlain s

/-! ### Dates and times -/

/-- A number of two digits within bounds. -/
def readPair (least most : Nat) : List Char → Option (Nat × List Char)
  | a :: b :: rest => do
    let n := (← digitBelow? 10 a) * 10 + (← digitBelow? 10 b)
    guard (least ≤ n ∧ n ≤ most)
    return (n, rest)
  | _ => none

def skipChar (c : Char) : List Char → Option (List Char)
  | d :: rest => if d = c then some rest else none
  | [] => none

def daysInMonth (year month : Nat) : Nat :=
  if month = 2 then
    if year % 4 = 0 ∧ (year % 100 ≠ 0 ∨ year % 400 = 0) then 29 else 28
  else if month = 4 ∨ month = 6 ∨ month = 9 ∨ month = 11 then 30
  else 31

/-- The rest of the text after a date. -/
def readDate (s : List Char) : Option (List Char) := do
  let (century, s) ← readPair 0 99 s
  let (year, s) ← readPair 0 99 s
  let (month, s) ← readPair 1 12 (← skipChar '-' s)
  let (_, s) ← readPair 1 (daysInMonth (100 * century + year) month) (← skipChar '-' s)
  return s

/-- The rest of the text after a time of day. A minute may have a leap second. -/
def readTime (s : List Char) : Option (List Char) := do
  let (_, s) ← readPair 0 23 s
  let (_, s) ← readPair 0 59 (← skipChar ':' s)
  let (_, s) ← readPair 0 60 (← skipChar ':' s)
  match s with
  | '.' :: rest =>
    match Digit.span rest with
    | ([], _) => none
    | (_, rest) => return rest
  | _ => return s

/-- The rest of the text after the distance to universal time, if there is one. -/
def readZone : List Char → Option (List Char)
  | 'Z' :: rest | 'z' :: rest => some rest
  | '+' :: rest | '-' :: rest => do
    let (_, s) ← readPair 0 23 rest
    let (_, s) ← readPair 0 59 (← skipChar ':' s)
    return s
  | s => some s

def startsDate (s : List Char) : Bool :=
  (s.take 4).length = 4 && (s.take 4).all Char.isDigit && (s.drop 4).head? = some '-'

def startsTime (s : List Char) : Bool :=
  (s.take 2).length = 2 && (s.take 2).all Char.isDigit && (s.drop 2).head? = some ':'

/-- The rest of the text after a date, a time or both. -/
def readDateTime (s : List Char) : Option (List Char) :=
  if startsTime s then readTime s
  else do
    let rest ← readDate s
    match rest with
    | c :: after =>
      if (c = 'T' ∨ c = 't' ∨ c = ' ') ∧ startsTime after then do readZone (← readTime after)
      else return rest
    | [] => return rest

end MixerRouting.Toml
