import MixerRouting.Number.Rounding

/-!
# The fewest digits that read back

Every real number in a certain interval around a floating-point number rounds
to it. `shortest` looks for a multiple of a power of ten in that interval,
the coarsest power first, so the multiple it finds has the fewest digits; of
two multiples it takes the nearer one. All comparisons are between natural
numbers.
-/
namespace MixerRouting

/-- The number `digits * 10 ^ exponent`. -/
structure Decimal where
  digits : Nat
  exponent : Int
  deriving DecidableEq, Repr

/-- A positive number with the interval of the reals that round to it, all as numerators
over one denominator. -/
structure RoundingInterval where
  low : Nat
  value : Nat
  high : Nat
  denominator : Nat
  /-- Whether the two ends round to the number as well. -/
  closed : Bool
  deriving DecidableEq, Repr

/-- The interval of `units * 2 ^ scale`. The next number below is half as far away when the
number is the least of its power of two. -/
def RoundingInterval.of (format : FloatFormat) (units : Nat) (scale : Int) : RoundingInterval :=
  let below := if units = Nat.pow 2 (format.precision - 1) ∧ format.leastScale < scale then 1 else 2
  let quarters := divPower 2 1 1 (2 - scale)
  { low := (4 * units - below) * quarters.1
    value := 4 * units * quarters.1
    high := (4 * units + 2) * quarters.1
    denominator := quarters.2
    closed := units % 2 = 0 }

namespace RoundingInterval

/-- Whether `point / denominator` rounds to the number. -/
def holds (r : RoundingInterval) (low high point : Nat) : Bool :=
  if r.closed then low ≤ point && point ≤ high else low < point && point < high

/-- The multiple of `10 ^ exponent` in the interval that is nearest to the number, if there is one
next to the number. -/
def onGrid? (r : RoundingInterval) (tie : Tie) (exponent : Int) : Option Nat :=
  let power := divPower 10 1 1 (-exponent)
  let step := power.1 * r.denominator
  let low := r.low * power.2
  let value := r.value * power.2
  let high := r.high * power.2
  let under := value / step
  let holdsUnder := r.holds low high (under * step)
  let holdsOver := r.holds low high ((under + 1) * step)
  if holdsUnder && holdsOver then some (roundDiv tie value step)
  else if holdsUnder then some under
  else if holdsOver then some (under + 1)
  else none

/-- The first grid with a hit, going from `10 ^ exponent` to finer ones. -/
def search (r : RoundingInterval) (tie : Tie) : Nat → Int → Decimal
  | 0, exponent => ⟨r.value / r.denominator, exponent⟩
  | fuel + 1, exponent =>
    match r.onGrid? tie exponent with
    | some digits => ⟨digits, exponent⟩
    | none => r.search tie fuel (exponent - 1)

end RoundingInterval

/-- The decimal with the fewest digits that rounds to the positive number `units * 2 ^ scale`.
The search starts at a power of ten above the number; the digits of the format and the few
grids above the number bound its length. -/
def shortest (format : FloatFormat) (tie : Tie) (units : Nat) (scale : Int) : Decimal :=
  let top := (scale + Nat.log2 units + 1) * 30103 / 100000 + 2
  (RoundingInterval.of format units scale).search tie (format.precision / 2 + 8) top

end MixerRouting
