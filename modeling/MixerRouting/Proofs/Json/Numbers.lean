import MixerRouting.Json.Fields
import MixerRouting.Proofs.Number.Written

/-!
# Written numbers are in range for the reader

The reader of numbers refuses what double precision cannot hold on the way. A
numeral whose digits stay near one never gets there: the digits that it takes
fit into 64 bits, the power of ten that it scales them with is small, and the
product is far below the ceiling of the format. So every finite number of
single precision is read back from its numeral as some number.
-/
namespace MixerRouting

theorem log2_pow_ten_le (k : Nat) : (10 ^ k).log2 ≤ 4 * k := by
  have hpow : 10 ^ k ≤ 2 ^ (4 * k) := by
    rw [Nat.pow_mul]
    exact Nat.pow_le_pow_left (by decide) k
  exact (log2_le_of_le hpow).trans_eq Nat.log2_two_pow

theorem isFinite_nearest_double {num den : Nat} (hd : den ≠ 0)
    (hsize : quotientLog2 num den < 1023) (negative : Bool) :
    (FloatFormat.double.nearest negative num den).isFinite = true := by
  have hceiling : FloatFormat.double.ceiling = 1024 := rfl
  by_cases hn : num = 0
  · rw [FloatFormat.nearest, if_pos hn]
    rfl
  · obtain ⟨units, scale, hfinite, -⟩ :=
      FloatFormat.double.nearest_eq_finite (by decide) (by decide) hn hd (by omega) negative
    rw [hfinite]
    rfl

/-- A natural number well below the ceiling of double precision becomes a number of its size. -/
theorem nearest_double_natural {n : Nat} (hn : n ≠ 0) (hsize : n.log2 < 1023) :
    ∃ units scale, FloatFormat.double.nearest false n 1 = .finite false units scale ∧
      units ≠ 0 ∧ scale + units.log2 ≤ n.log2 + 1 ∧ -53 ≤ scale := by
  have hprecision : FloatFormat.double.precision = 53 := rfl
  have hleast : FloatFormat.double.leastScale = -1074 := rfl
  have hceiling : FloatFormat.double.ceiling = 1024 := rfl
  have hlog := quotientLog2_one n
  obtain ⟨units, scale, hfinite, hsum, hpos⟩ :=
    FloatFormat.double.nearest_eq_finite (by decide) (by decide) hn one_ne_zero (by omega) false
  obtain ⟨hunits, hscale⟩ := hpos (by omega)
  exact ⟨units, scale, hfinite, hunits, by omega, by omega⟩

namespace Numeral

theorem takeWord_le (digits : List Digit) {n : Nat} (hn : n ≤ maxWord) :
    (takeWord n digits).1 ≤ maxWord ∧ (takeWord n digits).2 ≤ digits.length := by
  induction digits generalizing n with
  | nil => exact ⟨hn, le_rfl⟩
  | cons d rest ih =>
    rw [takeWord]
    split
    next hfits =>
      obtain ⟨hword, hleft⟩ := ih hfits
      exact ⟨hword, hleft.trans (Nat.le_succ _)⟩
    · exact ⟨hn, le_rfl⟩

theorem significand_bounds (n : Numeral) :
    n.significand.1 ≤ maxWord ∧ n.unit ≤ n.significand.2 ∧
      n.significand.2 ≤ n.exponent.getD 0 + (Digit.ofNat n.whole).length := by
  obtain ⟨hwhole, hskipped⟩ := takeWord_le (Digit.ofNat n.whole) (Nat.zero_le maxWord)
  obtain ⟨hdigits, hleft⟩ := takeWord_le n.fraction hwhole
  refine ⟨hdigits, ?_, ?_⟩
  · simp only [significand, unit]
    omega
  · simp only [significand]
    omega

theorem scaled_isSome {digits : Nat} {exponent : Int} (hdigits : digits ≤ maxWord)
    (he : exponent.natAbs ≤ 150) (negative : Bool) :
    (scaled negative digits exponent).isSome = true := by
  have hword : digits.log2 ≤ 63 := log2_le_of_lt_pow (Nat.lt_succ_of_le hdigits)
  have hpower := log2_pow_ten_le exponent.natAbs
  unfold scaled
  dsimp only
  split
  · rfl
  next hzero =>
    rw [if_neg (by simp only [maxPower]; omega)]
    obtain ⟨units, scale, hunits, hne, hsum, hscale⟩ :=
      nearest_double_natural (n := digits) (by omega) (by omega)
    obtain ⟨powerUnits, powerScale, hpowers, hne', hsum', hscale'⟩ :=
      nearest_double_natural (n := 10 ^ exponent.natAbs) (Nat.pow_pos (by decide)).ne' (by omega)
    rw [hunits, Nat.pow_eq, hpowers]
    dsimp only
    split
    -- Either way the size of the result is that of the digits plus or minus that of the power.
    next hless =>
      obtain ⟨-, hden⟩ := divPower_ne_zero hne hne' (powerScale - scale)
      have hsize := quotientLog2_divPower hne hne' (powerScale - scale)
      have hlog : quotientLog2 units powerUnits = units.log2 - powerUnits.log2 := rfl
      rw [if_pos (isFinite_nearest_double hden (by omega) negative)]
      rfl
    next hless =>
      have hproduct := Nat.mul_ne_zero hne hne'
      obtain ⟨-, hden⟩ := divPower_ne_zero hproduct one_ne_zero (-(scale + powerScale))
      have hsize := quotientLog2_divPower hproduct one_ne_zero (-(scale + powerScale))
      have hlog := quotientLog2_one (units * powerUnits)
      have hboth := log2_mul_le units powerUnits
      rw [if_pos (isFinite_nearest_double hden (by omega) negative)]
      rfl

/-- Numerals with digits near one, written with a point or an exponent, are in range. -/
theorem single?_isSome {n : Numeral} (h : n.Within 150) : n.single?.isSome = true := by
  obtain ⟨hdigits, hlow, hhigh⟩ := n.significand_bounds
  have hlowest := h.lowest
  have hhighest := h.highest
  have hexponent : n.significand.2.natAbs ≤ 150 := by omega
  have hscaled := scaled_isSome hdigits hexponent n.negative
  simpa [single?, h.marked] using hscaled

end Numeral

namespace JsonValue

/-- A finite number has a numeral that stands for some number. -/
theorem isSome_single?_ofSingle {x : Float32} (h : (FloatValue.ofSingle x).isFinite = true) :
    (ofSingle x).single?.isSome = true := by
  cases hx : FloatValue.ofSingle x with
  | finite negative units scale =>
    have hwithin := NumberStyle.within_numeral (rfl : numberStyle.pointAlways = true)
      (fitsSingle_ofSingle hx) negative
    simpa [ofSingle, single?, hx] using Numeral.single?_isSome hwithin
  | nan =>
    rw [hx] at h
    cases h
  | infinite negative =>
    rw [hx] at h
    cases h

end JsonValue

end MixerRouting
