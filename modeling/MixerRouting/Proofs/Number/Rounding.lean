import Mathlib.Algebra.Order.Ring.Nat
import Mathlib.Tactic.SplitIfs
import MixerRouting.Number.Rounding

/-!
# How far rounding goes

Rounding a quotient to a format keeps its size: the number of units and their
scale add up to at most one power of two more than the quotient has. So only
a quotient next to the ceiling of the format or above becomes infinite.
-/
namespace MixerRouting

theorem log2_mul_pow {n : Nat} (hn : n ≠ 0) (k : Nat) : (n * 2 ^ k).log2 = n.log2 + k := by
  have hpos : n * 2 ^ k ≠ 0 := Nat.mul_ne_zero hn (Nat.two_pow_pos k).ne'
  rw [Nat.log2_eq_iff hpos, Nat.pow_add, Nat.add_right_comm, Nat.pow_add]
  exact ⟨Nat.mul_le_mul_right _ (Nat.log2_self_le hn),
    Nat.mul_lt_mul_of_pos_right Nat.lt_log2_self (Nat.two_pow_pos k)⟩

theorem log2_mul_le (m n : Nat) : (m * n).log2 ≤ m.log2 + n.log2 + 1 := by
  by_cases h : m * n = 0
  · simp [h]
  · have hless : m * n < 2 ^ (m.log2 + 1) * 2 ^ (n.log2 + 1) :=
      Nat.mul_lt_mul'' Nat.lt_log2_self Nat.lt_log2_self
    rw [← Nat.pow_add] at hless
    have := (Nat.log2_lt h).mpr hless
    omega

theorem log2_le_of_le {m n : Nat} (h : m ≤ n) : m.log2 ≤ n.log2 := by
  by_cases hm : m = 0
  · simp [hm]
  · exact (Nat.le_log2 (by omega)).mpr ((Nat.log2_self_le hm).trans h)

theorem log2_le_of_lt_pow {n k : Nat} (h : n < 2 ^ (k + 1)) : n.log2 ≤ k := by
  by_cases hn : n = 0
  · simp [hn]
  · have := (Nat.log2_lt hn).mpr h
    omega

/-- The power of two of a quotient, too large by one at most. -/
def quotientLog2 (num den : Nat) : Int := (num.log2 : Int) - den.log2

theorem quotientLog2_one (n : Nat) : quotientLog2 n 1 = n.log2 := by
  have hone : Nat.log2 1 = 0 := by decide
  simp [quotientLog2, hone]

theorem floorLog2_bounds (num den : Nat) :
    quotientLog2 num den - 1 ≤ floorLog2 num den ∧ floorLog2 num den ≤ quotientLog2 num den := by
  rw [floorLog2, ← quotientLog2]
  dsimp only
  split <;> omega

/-- Dividing by a power of two takes that power away. -/
theorem quotientLog2_divPower {num den : Nat} (hn : num ≠ 0) (hd : den ≠ 0) (e : Int) :
    quotientLog2 (divPower 2 num den e).1 (divPower 2 num den e).2 = quotientLog2 num den - e := by
  cases e with
  | ofNat e =>
    have hlog := log2_mul_pow hd e
    simp only [divPower, quotientLog2, Nat.pow_eq, hlog, Int.ofNat_eq_natCast]
    omega
  | negSucc e =>
    have hlog := log2_mul_pow hn (e + 1)
    simp only [divPower, quotientLog2, Nat.pow_eq, hlog]
    omega

theorem divPower_ne_zero {num den : Nat} (hn : num ≠ 0) (hd : den ≠ 0) (e : Int) :
    (divPower 2 num den e).1 ≠ 0 ∧ (divPower 2 num den e).2 ≠ 0 := by
  cases e with
  | ofNat e => exact ⟨hn, Nat.mul_ne_zero hd (Nat.two_pow_pos e).ne'⟩
  | negSucc e => exact ⟨Nat.mul_ne_zero hn (Nat.two_pow_pos (e + 1)).ne', hd⟩

theorem roundDiv_bounds (tie : Tie) (num den : Nat) :
    num / den ≤ roundDiv tie num den ∧ roundDiv tie num den ≤ num / den + 1 := by
  cases tie <;> unfold roundDiv <;> dsimp only <;> split_ifs <;> omega

theorem div_lt_pow {num den : Nat} (hd : den ≠ 0) :
    num / den < 2 ^ (num.log2 + 1 - den.log2) := by
  apply Nat.div_lt_of_lt_mul
  calc num < 2 ^ (num.log2 + 1) := Nat.lt_log2_self
    _ ≤ 2 ^ (den.log2 + (num.log2 + 1 - den.log2)) := Nat.pow_le_pow_right (by decide) (by omega)
    _ = 2 ^ den.log2 * 2 ^ (num.log2 + 1 - den.log2) := Nat.pow_add ..
    _ ≤ den * 2 ^ (num.log2 + 1 - den.log2) := Nat.mul_le_mul_right _ (Nat.log2_self_le hd)

theorem log2_roundDiv_le {num den : Nat} (hd : den ≠ 0) (tie : Tie) :
    ((roundDiv tie num den).log2 : Int) ≤ max 0 (quotientLog2 num den + 1) := by
  have hround := (roundDiv_bounds tie num den).2
  have hless : num / den < 2 ^ (num.log2 + 1 - den.log2) := div_lt_pow hd
  have hlog : (roundDiv tie num den).log2 ≤ num.log2 + 1 - den.log2 := by
    calc (roundDiv tie num den).log2 ≤ (2 ^ (num.log2 + 1 - den.log2)).log2 :=
        log2_le_of_le (by omega)
      _ = num.log2 + 1 - den.log2 := Nat.log2_two_pow
  unfold quotientLog2
  omega

theorem roundDiv_ne_zero {num den : Nat} (h : 0 < quotientLog2 num den) (hd : den ≠ 0)
    (tie : Tie) : roundDiv tie num den ≠ 0 := by
  have hn : num ≠ 0 := by
    rintro rfl
    simp [quotientLog2] at h
    omega
  have hle : den ≤ num := by
    have hlogs : den.log2 + 1 ≤ num.log2 := by
      unfold quotientLog2 at h
      omega
    calc den ≤ 2 ^ (den.log2 + 1) := Nat.lt_log2_self.le
      _ ≤ 2 ^ num.log2 := Nat.pow_le_pow_right (by decide) hlogs
      _ ≤ num := Nat.log2_self_le hn
  have hpos : 0 < num / den := Nat.div_pos hle (Nat.pos_of_ne_zero hd)
  have := (roundDiv_bounds tie num den).1
  omega

namespace FloatFormat

/-- Units and scale after a carry into the next power of two. -/
def carried (format : FloatFormat) (units : Nat) (scale : Int) : Nat × Int :=
  if units = Nat.pow 2 format.precision then (Nat.pow 2 (format.precision - 1), scale + 1)
  else (units, scale)

theorem carried_spec {format : FloatFormat} (hp : format.precision ≠ 0) (units : Nat)
    (scale : Int) :
    (format.carried units scale).2 + (format.carried units scale).1.log2 = scale + units.log2 ∧
      scale ≤ (format.carried units scale).2 ∧
      (units ≠ 0 → (format.carried units scale).1 ≠ 0) := by
  unfold carried
  split
  next h =>
    have hpos := Nat.two_pow_pos (format.precision - 1)
    simp only [h, Nat.pow_eq, Nat.log2_two_pow]
    omega
  · exact ⟨rfl, le_rfl, id⟩

/-- A quotient below the ceiling by a power of two is rounded to a number that is larger by one
power of two at most; a quotient above the least number is not rounded to zero, and its scale is
not far below it. -/
theorem nearest_eq_finite (format : FloatFormat) (hp : 2 ≤ format.precision)
    (hleast : format.leastScale < format.ceiling) {num den : Nat} (hn : num ≠ 0) (hd : den ≠ 0)
    (hsize : quotientLog2 num den + 1 < format.ceiling) (negative : Bool) :
    ∃ units scale, format.nearest negative num den = .finite negative units scale ∧
      scale + units.log2 ≤ max format.leastScale (quotientLog2 num den + 1) ∧
      (format.leastScale < quotientLog2 num den →
        units ≠ 0 ∧ quotientLog2 num den - format.precision ≤ scale) := by
  obtain ⟨hlow, hhigh⟩ := floorLog2_bounds num den
  let scale := max (floorLog2 num den - (format.precision - 1 : Nat)) format.leastScale
  let units := roundDiv .toEven (divPower 2 num den scale).1 (divPower 2 num den scale).2
  have hgap := quotientLog2_divPower hn hd scale
  have hden := (divPower_ne_zero hn hd scale).2
  have hlog : (units.log2 : Int) ≤ max 0 (quotientLog2 num den - scale + 1) :=
    hgap ▸ log2_roundDiv_le hden .toEven
  have hpos : 0 < quotientLog2 num den - scale → units ≠ 0 :=
    fun h => roundDiv_ne_zero (hgap.symm ▸ h) hden .toEven
  obtain ⟨hsum, hscale, hunits⟩ := carried_spec (by omega : format.precision ≠ 0) units scale
  -- Dividing by the scale took away what the scale adds again, whichever of the two it is.
  have hbelow : ¬(format.ceiling ≤ (format.carried units scale).2 +
      (format.carried units scale).1.log2 ∧ (format.carried units scale).1 ≠ 0) := by
    omega
  refine ⟨(format.carried units scale).1, (format.carried units scale).2, ?_, by omega, ?_⟩
  · rw [nearest, if_neg hn]
    exact if_neg hbelow
  · intro h
    have hgrid : 0 < quotientLog2 num den - scale := by omega
    exact ⟨hunits (hpos hgrid), by omega⟩

end FloatFormat

end MixerRouting
