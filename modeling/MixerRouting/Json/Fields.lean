import MixerRouting.Json.Value

/-!
# Fields, alternatives and numbers of a JSON value

Readers of records use these views. A record is an object in which every
field it knows occurs at most once and all others are passed over; it may
also be written as an array of its fields in order, of which the last ones
may be left out. An alternative is its name, or an object with the name as its
only field.

A single-precision number is read in two steps. The digits that fit into 64
bits are rounded to double precision and scaled by a power of ten that is
itself rounded to double precision; the result is then rounded to single
precision. Integers that fit into 64 bits are rounded once.
-/
namespace MixerRouting.JsonValue

/-- The value of the field `name`, if it occurs once; `some none` if it does not occur. -/
def field? (fields : List (String × JsonValue)) (name : String) : Option (Option JsonValue) :=
  match fields.filter fun field => field.1 = name with
  | [] => some none
  | [field] => some (some field.2)
  | _ => none

/-- The fields of a record in the order of `names`, `none` for a field that is missing. -/
def fields? (names : List String) : JsonValue → Option (List (Option JsonValue))
  | .object fields => do
    let fields ← fields.mapM fun field => field.1.map fun name => (name, field.2)
    names.mapM (field? fields)
  | .array items =>
    if items.length ≤ names.length then
      some (items.map some ++ List.replicate (names.length - items.length) none)
    else none
  | _ => none

/-- The name of an alternative and the value that it carries. -/
def variant? : JsonValue → Option (String × Option JsonValue)
  | .text (some name) => some (name, none)
  | .object [(some name, value)] => some (name, some value)
  | _ => none

/-- An alternative that carries nothing: its name alone, or with `null`. -/
def unit? (v : JsonValue) : Option String :=
  match v.variant? with
  | some (name, none) => some name
  | some (name, some .null) => some name
  | _ => none

def bool? : JsonValue → Option Bool
  | .bool b => some b
  | _ => none

/-- A string that may be missing: `null` stands for that. -/
def optionalString? : JsonValue → Option (Option String)
  | .null => some none
  | .text s => s.map some
  | _ => none

/-- A natural number up to `bound`, written as an integer without a sign. -/
def nat? (bound : Nat) : JsonValue → Option Nat
  | .number n =>
    if n.isInteger ∧ n.negative = false ∧ n.whole ≤ bound then some n.whole else none
  | _ => none

end JsonValue

namespace Numeral

def maxWord : Nat := UInt64.size - 1

/-- Takes digits as long as the number they form fits into 64 bits; answers it and how many
digits are left. -/
def takeWord (n : Nat) : List Digit → Nat × Nat
  | [] => (n, 0)
  | d :: rest =>
    if 10 * n + d.val ≤ maxWord then takeWord (10 * n + d.val) rest else (n, rest.length + 1)

/-- The digits that fit into 64 bits, and the power of ten that they are multiplied with. The
digits behind the point are tried even if some in front of it were left out. -/
def significand (n : Numeral) : Nat × Int :=
  let (whole, skipped) := takeWord 0 (Digit.ofNat n.whole)
  let (digits, left) := takeWord whole n.fraction
  (digits, n.exponent.getD 0 + skipped - (n.fraction.length - left : Nat))

/-- The largest power of ten that double precision has. -/
def maxPower : Nat := 308

/-- `digits * 10 ^ exponent` with both factors and the product rounded to double precision;
`none` if that is infinite. Below the smallest power of ten the number is too small for single
precision and counts as zero. -/
def scaled (negative : Bool) (digits : Nat) (exponent : Int) : Option FloatValue :=
  let zero := FloatValue.finite negative 0 FloatFormat.double.leastScale
  if digits = 0 ∨ exponent < -maxPower then some zero
  else if maxPower < exponent then none
  else
    match FloatFormat.double.nearest false digits 1,
        FloatFormat.double.nearest false (Nat.pow 10 exponent.natAbs) 1 with
    | .finite _ units scale, .finite _ powerUnits powerScale =>
      let product :=
        if exponent < 0 then
          let (num, den) := divPower 2 units powerUnits (powerScale - scale)
          FloatFormat.double.nearest negative num den
        else
          let (num, den) := divPower 2 (units * powerUnits) 1 (-(scale + powerScale))
          FloatFormat.double.nearest negative num den
      if product.isFinite then some product else none
    | _, _ => none

/-- The single-precision number that a numeral stands for; `none` if it is out of range for
double precision. -/
def single? (n : Numeral) : Option Float32 :=
  if n.isInteger ∧ n.negative = false ∧ n.whole ≤ maxWord then some (singleOfInt n.whole)
  else if n.isInteger ∧ n.negative ∧ n.whole ≠ 0 ∧ n.whole ≤ 0x8000000000000000 then
    some (singleOfInt (-n.whole))
  else
    let (digits, exponent) := n.significand
    (scaled n.negative digits exponent).map FloatValue.toSingle

end Numeral

namespace JsonValue

/-- Numbers are written with the fewest digits that read back, with a point always and with an
exponent outside of the range from a millionth up to ten million millions. -/
def numberStyle : NumberStyle := ⟨.toEven, some (-6, 13), true, "null"⟩

/-- A single-precision number; infinities and NaN have no numeral and become `null`. -/
def ofSingle (x : Float32) : JsonValue :=
  match FloatValue.ofSingle x with
  | .finite negative units scale => .number (numberStyle.numeral .single negative units scale)
  | _ => .null

def single? : JsonValue → Option Float32
  | .number n => n.single?
  | _ => none

end MixerRouting.JsonValue
