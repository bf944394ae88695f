import MixerRouting.Number.Shortest
import MixerRouting.Proofs.Number.Quotients

/-!
# Which quotients round to a number

Every number of a format has an interval of quotients around it that round to
it. The interval reaches half-way to both neighbours and includes its ends if
the number of units is even; the number below is half as far away if the
number is the least of its power of two. `nearest_eq` says that rounding does
what the interval says, and the number itself lies in its interval.
-/
namespace MixerRouting.FloatFormat

/-- The units and the scale of a number of the format, with as many units as the format allows. -/
structure Holds (format : FloatFormat) (units : Nat) (scale : ℤ) : Prop where
  units_lt : units < 2 ^ format.precision
  least_le : format.leastScale ≤ scale
  full : format.leastScale < scale → 2 ^ (format.precision - 1) ≤ units
  below : scale + format.precision ≤ format.ceiling

/-- How many quarters of a unit the interval of a number reaches down. -/
def quartersBelow (format : FloatFormat) (units : Nat) (scale : ℤ) : Nat :=
  if units = 2 ^ (format.precision - 1) ∧ format.leastScale < scale then 1 else 2

/-- Whether a quotient lies in the interval of a number. -/
structure RoundsTo (format : FloatFormat) (units : Nat) (scale : ℤ) (q : ℚ) : Prop where
  low : (4 * units - format.quartersBelow units scale) * (2 : ℚ) ^ (scale - 2) ≤ q
  high : q ≤ (4 * units + 2) * (2 : ℚ) ^ (scale - 2)
  inside : units % 2 = 1 →
    (4 * units - format.quartersBelow units scale) * (2 : ℚ) ^ (scale - 2) < q ∧
      q < (4 * units + 2) * (2 : ℚ) ^ (scale - 2)

variable {format : FloatFormat} {units : Nat} {scale : ℤ} {q : ℚ}

theorem one_le_quartersBelow (format : FloatFormat) (units : Nat) (scale : ℤ) :
    1 ≤ format.quartersBelow units scale := by
  unfold quartersBelow
  split <;> decide

theorem quartersBelow_le_two (format : FloatFormat) (units : Nat) (scale : ℤ) :
    format.quartersBelow units scale ≤ 2 := by
  unfold quartersBelow
  split <;> decide

theorem two_zpow_eq_quarters (scale : ℤ) : (2 : ℚ) ^ scale = 4 * 2 ^ (scale - 2) := by
  rw [zpow_sub₀ two_ne_zero]
  norm_num
  ring

theorem two_zpow_sub_one (scale : ℤ) : (2 : ℚ) ^ (scale - 1) = 2 * 2 ^ (scale - 2) := by
  rw [← zpow_one_add₀ two_ne_zero]
  congr 1
  ring

theorem two_zpow_add (k : Nat) (scale : ℤ) : (2 : ℚ) ^ (scale + k) = 2 ^ k * 2 ^ scale := by
  rw [zpow_add₀ two_ne_zero, zpow_natCast, mul_comm]

/-- Zero has the least scale. -/
theorem Holds.scale_eq (h : format.Holds 0 scale) : scale = format.leastScale := by
  rcases h.least_le.eq_or_lt with hleast | hless
  · exact hleast.symm
  · exact absurd (h.full hless) (Nat.not_le.mpr (Nat.two_pow_pos _))

/-- A number lies in its own interval. -/
theorem roundsTo_self (format : FloatFormat) (units : Nat) (scale : ℤ) :
    format.RoundsTo units scale (units * 2 ^ scale) := by
  have hpos : (0 : ℚ) < 2 ^ (scale - 2) := by positivity
  have hquarters : (1 : ℚ) ≤ format.quartersBelow units scale := by
    exact_mod_cast format.one_le_quartersBelow units scale
  rw [two_zpow_eq_quarters]
  constructor
  · nlinarith
  · nlinarith
  · intro
    constructor <;> nlinarith

theorem RoundsTo.ge (h : format.RoundsTo units scale q) (hunits : units ≠ 0) :
    2 ^ (scale - 1) ≤ q := by
  have hpos : (0 : ℚ) < 2 ^ (scale - 2) := by positivity
  have hquarters : (format.quartersBelow units scale : ℚ) ≤ 2 := by
    exact_mod_cast format.quartersBelow_le_two units scale
  have hone : (1 : ℚ) ≤ units := by exact_mod_cast Nat.one_le_iff_ne_zero.mpr hunits
  have hlow := h.low
  rw [two_zpow_sub_one]
  nlinarith

theorem RoundsTo.pos (h : format.RoundsTo units scale q) (hunits : units ≠ 0) : 0 < q :=
  (zpow_pos two_pos _).trans_le (h.ge hunits)

/-- The interval ends below the next power of two. -/
theorem RoundsTo.lt (h : format.RoundsTo units scale q) (hholds : format.Holds units scale) :
    q < 2 ^ (scale + format.precision) := by
  have hpos : (0 : ℚ) < 2 ^ (scale - 2) := by positivity
  have hunits : (units : ℚ) + 1 ≤ 2 ^ format.precision := by exact_mod_cast hholds.units_lt
  rw [two_zpow_add, two_zpow_eq_quarters]
  have hhigh := h.high
  nlinarith

/-- A quotient in the interval that is below the number itself, which is the least of its power
of two, is rounded one power of two lower, and there it is carried up to the number. -/
theorem roundDiv_carries {num den : Nat} (hp : 2 ≤ format.precision) (hd : 0 < den)
    (hq : format.RoundsTo units scale (num / den)) (hleast : format.leastScale < scale)
    (hunits : units = 2 ^ (format.precision - 1)) (hbelow : (num / den : ℚ) < units * 2 ^ scale) :
    floorLog2 num den - (format.precision - 1 : Nat) = scale - 1 ∧
      roundDiv .toEven (divPower 2 num den (scale - 1)).1 (divPower 2 num den (scale - 1)).2 =
        2 ^ format.precision := by
  have hpos : (0 : ℚ) < 2 ^ (scale - 2) := by positivity
  have hquarters : format.quartersBelow units scale = 1 := if_pos ⟨hunits, hleast⟩
  have hpower : (2 : ℚ) ^ format.precision = 2 * units := by
    rw [hunits, Nat.cast_pow, Nat.cast_ofNat, ← pow_succ', Nat.sub_add_cancel (by omega)]
  have hone : (1 : ℚ) ≤ units := by
    rw [hunits]
    exact_mod_cast Nat.one_le_two_pow
  have hlow : (4 * (units : ℚ) - 1) * 2 ^ (scale - 2) ≤ num / den := by
    simpa [hquarters] using hq.low
  have hnum : 0 < num := by
    rcases Nat.eq_zero_or_pos num with rfl | h
    · simp only [Nat.cast_zero, zero_div] at hlow
      nlinarith
    · exact h
  have hshift := two_zpow_sub_one scale
  constructor
  · have hle : scale - 2 + format.precision ≤ floorLog2 num den := by
      refine le_floorLog2 hnum hd ?_
      rw [two_zpow_add, hpower]
      nlinarith
    have hlt : floorLog2 num den < scale + (format.precision - 1 : Nat) := by
      refine floorLog2_lt hnum hd ?_
      rw [two_zpow_add]
      rw [hunits] at hbelow
      exact_mod_cast hbelow
    omega
  · have hvalue : ((divPower 2 num den (scale - 1)).1 : ℚ) / (divPower 2 num den (scale - 1)).2 =
        num / den / 2 ^ (scale - 1) := divPower_value 2 num den (scale - 1)
    rw [two_zpow_eq_quarters] at hbelow
    have heven : 2 ^ format.precision % 2 = 0 := by
      rw [← Nat.sub_add_cancel (by omega : 1 ≤ format.precision), Nat.pow_succ,
        Nat.mul_mod_left]
    refine roundDiv_toEven_eq (divPower_den_pos (by decide) hd _ _) ?_ ?_ ?_
    · rw [hvalue, Nat.cast_pow, Nat.cast_ofNat, hpower, hshift, le_div_iff₀ (by positivity)]
      nlinarith
    · rw [hvalue, Nat.cast_pow, Nat.cast_ofNat, hpower, hshift, div_le_iff₀ (by positivity)]
      nlinarith
    · omega

/-- In all other cases a quotient in the interval is rounded to whole units of the number. -/
theorem roundDiv_keeps {num den : Nat} (hp : 2 ≤ format.precision) (hd : 0 < den)
    (hholds : format.Holds units scale) (hpositive : units ≠ 0)
    (hq : format.RoundsTo units scale (num / den))
    (hregular : format.leastScale < scale → units = 2 ^ (format.precision - 1) →
      (units * 2 ^ scale : ℚ) ≤ num / den) :
    max (floorLog2 num den - (format.precision - 1 : Nat)) format.leastScale = scale ∧
      roundDiv .toEven (divPower 2 num den scale).1 (divPower 2 num den scale).2 = units := by
  have hpos : (0 : ℚ) < 2 ^ (scale - 2) := by positivity
  have hquarters : (format.quartersBelow units scale : ℚ) ≤ 2 := by
    exact_mod_cast format.quartersBelow_le_two units scale
  have hnum : 0 < num := by
    rcases Nat.eq_zero_or_pos num with rfl | h
    · simpa using hq.pos hpositive
    · exact h
  constructor
  · have hlt := floorLog2_lt hnum hd (hq.lt hholds)
    rcases hholds.least_le.eq_or_lt with hleast | hleast
    · omega
    · have hge : scale + (format.precision - 1 : Nat) ≤ floorLog2 num den := by
        refine le_floorLog2 hnum hd ?_
        rw [two_zpow_add]
        rcases (hholds.full hleast).eq_or_lt with hunits | hunits
        · exact_mod_cast hunits ▸ hregular hleast hunits.symm
        · have hmore : (2 : ℚ) ^ (format.precision - 1) + 1 ≤ units := by exact_mod_cast hunits
          have hlow := hq.low
          rw [two_zpow_eq_quarters]
          nlinarith
      omega
  · have hvalue : ((divPower 2 num den scale).1 : ℚ) / (divPower 2 num den scale).2 =
        num / den / 2 ^ scale := divPower_value 2 num den scale
    refine roundDiv_toEven_eq (divPower_den_pos (by decide) hd _ _) ?_ ?_ ?_
    · rw [hvalue, two_zpow_eq_quarters, le_div_iff₀ (by positivity)]
      have hlow := hq.low
      nlinarith
    · rw [hvalue, two_zpow_eq_quarters, div_le_iff₀ (by positivity)]
      have hhigh := hq.high
      nlinarith
    · intro hodd
      obtain ⟨hlow, hhigh⟩ := hq.inside hodd
      rw [hvalue, two_zpow_eq_quarters, lt_div_iff₀ (by positivity), div_lt_iff₀ (by positivity)]
      constructor <;> nlinarith

/-- A quotient in the interval of a number is rounded to the number. -/
theorem nearest_eq {num den : Nat} (hp : 2 ≤ format.precision) (hd : 0 < den)
    (hholds : format.Holds units scale) (hpositive : units ≠ 0)
    (hq : format.RoundsTo units scale (num / den)) (negative : Bool) :
    format.nearest negative num den = .finite negative units scale := by
  have hnum : num ≠ 0 := by
    rintro rfl
    simpa using hq.pos hpositive
  have hlog : units.log2 < format.precision := (Nat.log2_lt hpositive).mpr hholds.units_lt
  have hbelow := hholds.below
  have hbound : ¬(format.ceiling ≤ scale + units.log2 ∧ units ≠ 0) := by omega
  unfold nearest
  rw [if_neg hnum]
  by_cases hcarry : format.leastScale < scale ∧ units = 2 ^ (format.precision - 1) ∧
      (num / den : ℚ) < units * 2 ^ scale
  · obtain ⟨hleast, hunits, hless⟩ := hcarry
    obtain ⟨hscale, hround⟩ := roundDiv_carries hp hd hq hleast hunits hless
    have hmax : max (floorLog2 num den - (format.precision - 1 : Nat)) format.leastScale =
        scale - 1 := by omega
    simp only [hmax, hround, Nat.pow_eq, if_true, sub_add_cancel, ← hunits]
    exact if_neg hbound
  · obtain ⟨hscale, hround⟩ := roundDiv_keeps hp hd hholds hpositive hq fun hleast hunits =>
      le_of_not_gt fun hless => hcarry ⟨hleast, hunits, hless⟩
    simp only [hscale, hround, Nat.pow_eq, if_neg hholds.units_lt.ne]
    exact if_neg hbound

/-- A value that the format has is rounded to itself, in the units of the format. -/
theorem ofValue_eq {units' : Nat} {scale' : ℤ} (hp : 2 ≤ format.precision)
    (hholds : format.Holds units scale) (hvalue : (units' * 2 ^ scale' : ℚ) = units * 2 ^ scale)
    (negative : Bool) :
    format.ofValue (.finite negative units' scale') = .finite negative units scale := by
  have hquotient := divPower_value 2 units' 1 (-scale')
  rw [Nat.cast_one, div_one, zpow_neg, div_inv_eq_mul, Nat.cast_ofNat, hvalue] at hquotient
  have hden := divPower_den_pos (by decide : 0 < 2) one_pos units' (-scale')
  rw [ofValue]
  dsimp only
  rcases Nat.eq_zero_or_pos units with rfl | hpositive
  · have hzero : (divPower 2 units' 1 (-scale')).1 = 0 := by
      rw [Nat.cast_zero, zero_mul, div_eq_zero_iff] at hquotient
      rcases hquotient with hnum | hnone
      · exact_mod_cast hnum
      · exact absurd (by exact_mod_cast hnone) hden.ne'
    rw [nearest, if_pos hzero, hholds.scale_eq]
  · exact nearest_eq hp hden hholds hpositive.ne'
      (hquotient.symm ▸ format.roundsTo_self units scale) negative

end MixerRouting.FloatFormat
