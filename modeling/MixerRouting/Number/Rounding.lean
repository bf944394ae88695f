/-!
# Floating-point words as exact numbers

A finite floating-point number is a natural number of units, a power of two
and a sign. Rounding a positive quotient of natural numbers to such a number
is done here in exact arithmetic: the nearest representable number, an exact
half going to the even neighbour, a result that reaches the ceiling of the
format going to infinity.

Only single precision has a word type in this library. Double precision is
used as a rounding step on the way to it.
-/
namespace MixerRouting

/-- Where a quotient goes that lies exactly between two integers. -/
inductive Tie where
  | toEven
  | up
  deriving DecidableEq, Repr

/-- The integer nearest to `num / den`. -/
def roundDiv (tie : Tie) (num den : Nat) : Nat :=
  let floor := num / den
  let twice := 2 * (num % den)
  if twice < den then floor
  else if den < twice then floor + 1
  else match tie with
    | .up => floor + 1
    | .toEven => if floor % 2 = 0 then floor else floor + 1

@[simp] theorem roundDiv_one (tie : Tie) (n : Nat) : roundDiv tie n 1 = n := by
  simp [roundDiv, Nat.mod_one]

/-- The quotient `num / den` divided by `base ^ exponent`, again as a quotient. -/
def divPower (base : Nat) (num den : Nat) : Int → Nat × Nat
  | .ofNat e => (num, den * Nat.pow base e)
  | .negSucc e => (num * Nat.pow base (e + 1), den)

/-- Width and range of a binary floating-point format. -/
structure FloatFormat where
  /-- Bits of the significand. -/
  precision : Nat
  /-- The power of two that the least positive number is. -/
  leastScale : Int
  /-- Numbers that round to this power of two or above are infinite. -/
  ceiling : Int
  deriving DecidableEq, Repr

namespace FloatFormat

def single : FloatFormat := ⟨24, -149, 128⟩

def double : FloatFormat := ⟨53, -1074, 1024⟩

end FloatFormat

/-- What a floating-point word stands for: `± units * 2 ^ scale`, an infinity or no number. -/
inductive FloatValue where
  | nan
  | infinite (negative : Bool)
  | finite (negative : Bool) (units : Nat) (scale : Int)
  deriving DecidableEq, Repr

/-- The power of two at or below the quotient `num / den` of positive numbers. -/
def floorLog2 (num den : Nat) : Int :=
  let guess : Int := (Nat.log2 num : Int) - Nat.log2 den
  let (n, d) := divPower 2 num den guess
  if d ≤ n then guess else guess - 1

namespace FloatFormat

/-- The number of the format that is nearest to `num / den`, with the given sign. -/
def nearest (format : FloatFormat) (negative : Bool) (num den : Nat) : FloatValue :=
  if num = 0 then .finite negative 0 format.leastScale
  else
    let scale := max (floorLog2 num den - (format.precision - 1 : Nat)) format.leastScale
    let (n, d) := divPower 2 num den scale
    let units := roundDiv .toEven n d
    let (units, scale) :=
      if units = Nat.pow 2 format.precision then (Nat.pow 2 (format.precision - 1), scale + 1)
      else (units, scale)
    if format.ceiling ≤ scale + Nat.log2 units ∧ units ≠ 0 then .infinite negative
    else .finite negative units scale

/-- A value rounded to the format; the identity on the numbers the format has. -/
def ofValue (format : FloatFormat) : FloatValue → FloatValue
  | .nan => .nan
  | .infinite negative => .infinite negative
  | .finite negative units scale =>
    let (n, d) := divPower 2 units 1 (-scale)
    format.nearest negative n d

end FloatFormat

namespace FloatValue

/-- The place value of the sign in a single-precision word. -/
def signUnit : Nat := 0x80000000

/-- The place value of the exponent field: two to the power of 23. -/
def exponentUnit : Nat := 0x800000

/-- What a single-precision word stands for. -/
def ofSingle (x : Float32) : FloatValue :=
  let word := x.toBits.toNat
  let negative := decide (signUnit ≤ word)
  let exponent : Nat := word / exponentUnit % 256
  let fraction := word % exponentUnit
  if exponent = 255 then
    if fraction = 0 then .infinite negative else .nan
  else if exponent = 0 then .finite negative fraction (-149)
  else .finite negative (exponentUnit + fraction) ((exponent : Int) - 150)

/-- The word of a value that single precision has. The number of units and the
exponent field add up because a normal number has at least `exponentUnit` units. -/
def word : FloatValue → Nat
  | .nan => 0x7fc00000
  | .infinite negative => (if negative then signUnit else 0) + 255 * exponentUnit
  | .finite negative units scale =>
    (if negative then signUnit else 0) + (scale + 149).toNat * exponentUnit + units

/-- The single-precision number nearest to a value. -/
def toSingle (v : FloatValue) : Float32 :=
  Float32.ofBits (UInt32.ofNat (FloatFormat.single.ofValue v).word)

/-- Whether the value is a number, not an infinity and not NaN. -/
def isFinite : FloatValue → Bool
  | .finite .. => true
  | _ => false

end FloatValue

/-- The single-precision number nearest to an integer. -/
def singleOfInt (i : Int) : Float32 :=
  (FloatFormat.single.nearest (decide (i < 0)) i.natAbs 1).toSingle

end MixerRouting
