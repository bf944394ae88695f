import MixerRouting.Number.Shortest

/-!
# Written decimal numbers

A `Numeral` is a number as it stands in a text: sign, whole part, the digits
behind the point and an exponent, each of them present or not. Texts are read
into numerals and numerals are written as texts; what a numeral is worth and
which numeral a floating-point number gets are separate questions, answered
below by exact arithmetic.
-/
namespace MixerRouting

abbrev Digit := Fin 10

namespace Digit

def char (d : Digit) : Char := Char.ofNat ('0'.toNat + d.val)

def ofChar? (c : Char) : Option Digit :=
  if h : '0'.toNat ≤ c.toNat ∧ c.toNat - '0'.toNat < 10 then some ⟨c.toNat - '0'.toNat, h.2⟩
  else none

def zero : Digit := ⟨0, by decide⟩

/-- The last digit of a number. -/
def last (n : Nat) : Digit := ⟨n % 10, Nat.mod_lt n (by decide)⟩

/-- The number that a row of digits stands for. -/
def value (digits : List Digit) : Nat := digits.foldl (fun n d => 10 * n + d.val) 0

/-- Puts the last `fuel` digits of `n` in front of `rest`, without leading zeros. -/
def prepend : Nat → Nat → List Digit → List Digit
  | 0, _, rest => rest
  | fuel + 1, n, rest =>
    let rest := last n :: rest
    if n < 10 then rest else prepend fuel (n / 10) rest

/-- The digits of a number without leading zeros; a single zero for zero. -/
def ofNat (n : Nat) : List Digit := prepend (n + 1) n []

/-- The digits at the start of a text and what follows them. -/
def span : List Char → List Digit × List Char
  | [] => ([], [])
  | c :: rest =>
    match ofChar? c with
    | some d => let (ds, after) := span rest; (d :: ds, after)
    | none => ([], c :: rest)

@[simp] theorem ofChar?_char : ∀ d : Digit, ofChar? (char d) = some d := by decide

@[simp] theorem value_nil : value [] = 0 := rfl

end Digit

structure Numeral where
  negative : Bool
  whole : Nat
  fraction : List Digit
  exponent : Option Int
  deriving DecidableEq, Repr

namespace Numeral

def exponentChars : Option Int → List Char
  | none => []
  | some (.ofNat e) => 'e' :: '+' :: (Digit.ofNat e).map Digit.char
  | some (.negSucc e) => 'e' :: '-' :: (Digit.ofNat (e + 1)).map Digit.char

def chars (n : Numeral) : List Char :=
  (if n.negative then ['-'] else []) ++ (Digit.ofNat n.whole).map Digit.char
    ++ (if n.fraction.isEmpty then [] else '.' :: n.fraction.map Digit.char)
    ++ exponentChars n.exponent

def text (n : Numeral) : String := String.ofList n.chars

/-- Whether the numeral is written without a point and without an exponent. -/
def isInteger (n : Numeral) : Bool := n.fraction.isEmpty && n.exponent.isNone

/-- All digits as one number. -/
def digits (n : Numeral) : Nat :=
  n.fraction.foldl (fun m d => 10 * m + d.val) n.whole

/-- The power of ten that the last digit stands for. -/
def unit (n : Numeral) : Int := n.exponent.getD 0 - n.fraction.length

/-- The number of the format that is nearest to the numeral. A power of ten beyond the range of
the format decides the answer before any large number is formed. -/
def nearest (format : FloatFormat) (n : Numeral) : FloatValue :=
  let leading := n.unit + (Digit.ofNat n.digits).length
  if n.digits = 0 then .finite n.negative 0 format.leastScale
  else if format.ceiling < leading then .infinite n.negative
  else if leading < format.leastScale then .finite n.negative 0 format.leastScale
  else
    let (num, den) := divPower 10 n.digits 1 (-n.unit)
    format.nearest n.negative num den

end Numeral

/-- How the shortest decimal of a floating-point number is laid out. -/
structure NumberStyle where
  /-- Where a number goes that is half-way between two shortest decimals. -/
  tie : Tie
  /-- The powers of ten of the leading digit, from the first up to but not including the second,
  for which no exponent is written; all of them if there is no bound. -/
  plain : Option (Int × Int)
  /-- Whether a whole number is written with one digit behind the point. -/
  pointAlways : Bool
  /-- The text of NaN. -/
  nan : String
  deriving DecidableEq, Repr

namespace NumberStyle

/-- The decimal written out in full: the point stands where the exponent says. -/
def written (style : NumberStyle) (negative : Bool) (decimal : Decimal) : Numeral :=
  match decimal.exponent with
  | .ofNat e =>
    ⟨negative, decimal.digits * Nat.pow 10 e, if style.pointAlways then [.zero] else [], none⟩
  | .negSucc e =>
    let places := e + 1
    let behind := Digit.ofNat (decimal.digits % Nat.pow 10 places)
    ⟨negative, decimal.digits / Nat.pow 10 places,
      List.replicate (places - behind.length) .zero ++ behind, none⟩

/-- The decimal with one digit in front of the point and an exponent. -/
def scientific (negative : Bool) (decimal : Decimal) : Numeral :=
  match Digit.ofNat decimal.digits with
  | [] => ⟨negative, 0, [], none⟩
  | lead :: rest => ⟨negative, lead.val, rest, some (decimal.exponent + rest.length)⟩

/-- The numeral of a finite number. -/
def numeral (style : NumberStyle) (format : FloatFormat) (negative : Bool) (units : Nat)
    (scale : Int) : Numeral :=
  if units = 0 then ⟨negative, 0, if style.pointAlways then [.zero] else [], none⟩
  else
    let decimal := shortest format style.tie units scale
    let leading := decimal.exponent + (Digit.ofNat decimal.digits).length - 1
    match style.plain with
    | none => style.written negative decimal
    | some (least, bound) =>
      if least ≤ leading ∧ leading < bound then style.written negative decimal
      else scientific negative decimal

def text (style : NumberStyle) (format : FloatFormat) : FloatValue → String
  | .nan => style.nan
  | .infinite negative => if negative then "-inf" else "inf"
  | .finite negative units scale => (style.numeral format negative units scale).text

end NumberStyle

/-- The exact value rounded to `places` digits behind the point, a half going to the even digit;
the sign of zero is kept. -/
def FloatValue.fixed (places : Nat) : FloatValue → String
  | .nan => "NaN"
  | .infinite negative => if negative then "-inf" else "inf"
  | .finite negative units scale =>
    let (num, den) := divPower 2 (units * Nat.pow 10 places) 1 (-scale)
    let rounded := roundDiv .toEven num den
    let behind := Digit.ofNat (rounded % Nat.pow 10 places)
    Numeral.text ⟨negative, rounded / Nat.pow 10 places,
      List.replicate (places - behind.length) .zero ++ behind, none⟩

end MixerRouting
