import MixerRouting.Proofs.Number.Digits
import MixerRouting.Proofs.Number.Rounding

/-!
# How far the digits of a number reach

The search for the shortest decimal starts at a power of ten near the number
and takes a fixed number of steps at most, so the decimal that it finds has a
bounded exponent and a bounded number of digits, and so has the numeral that
is written for it. The bounds are generous: they show that a reader finds
nothing that is out of its range.
-/
namespace MixerRouting

namespace RoundingInterval

/-- A hit on the grid of `10 ^ exponent` is at most one step above the number. -/
theorem onGrid?_le {r : RoundingInterval} {tie : Tie} {exponent : Int} {digits : Nat}
    (h : r.onGrid? tie exponent = some digits) :
    digits ≤ r.value * 10 ^ exponent.natAbs + 1 := by
  have hpower : (divPower 10 1 1 (-exponent)).2 ≤ 10 ^ exponent.natAbs := by
    cases he : -exponent with
    | ofNat k =>
      have hk : exponent.natAbs = k := by
        rw [Int.ofNat_eq_natCast] at he
        omega
      simp [divPower, hk]
    | negSucc k => exact Nat.one_le_pow _ _ (by decide)
  have hvalue := Nat.mul_le_mul_left r.value hpower
  unfold onGrid? at h
  dsimp only at h
  have hround := (roundDiv_bounds tie (r.value * (divPower 10 1 1 (-exponent)).2)
    ((divPower 10 1 1 (-exponent)).1 * r.denominator)).2
  have hunder := Nat.div_le_self (r.value * (divPower 10 1 1 (-exponent)).2)
    ((divPower 10 1 1 (-exponent)).1 * r.denominator)
  split_ifs at h <;> cases h <;> omega

theorem search_bounds (r : RoundingInterval) (tie : Tie) (fuel : Nat) (exponent : Int) :
    let decimal := r.search tie fuel exponent
    exponent - fuel ≤ decimal.exponent ∧ decimal.exponent ≤ exponent ∧
      decimal.digits ≤ r.value * 10 ^ (fuel + exponent.natAbs) + 1 := by
  induction fuel generalizing exponent with
  | zero =>
    have hdigits : r.value / r.denominator ≤ r.value * 10 ^ (0 + exponent.natAbs) :=
      (Nat.div_le_self ..).trans (Nat.le_mul_of_pos_right _ (Nat.pow_pos (by decide)))
    exact ⟨by simp [search], le_rfl, Nat.le_succ_of_le hdigits⟩
  | succ fuel ih =>
    have hgrow : ∀ k, k ≤ fuel + 1 + exponent.natAbs →
        r.value * 10 ^ k ≤ r.value * 10 ^ (fuel + 1 + exponent.natAbs) :=
      fun k hk => Nat.mul_le_mul_left _ (Nat.pow_le_pow_right (by decide) hk)
    rw [search]
    cases hgrid : r.onGrid? tie exponent with
    | some digits =>
      have hdigits := onGrid?_le hgrid
      have := hgrow exponent.natAbs (by omega)
      exact ⟨by dsimp only; omega, le_rfl, by dsimp only; omega⟩
    | none =>
      obtain ⟨hlow, hhigh, hdigits⟩ := ih (exponent - 1)
      have := hgrow (fuel + (exponent - 1).natAbs) (by omega)
      exact ⟨by dsimp only; omega, by dsimp only; omega, by dsimp only; omega⟩

end RoundingInterval

/-- A number that single precision may have: its units and its scale are those of the format. -/
def FitsSingle (units : Nat) (scale : Int) : Prop :=
  units < 2 ^ 24 ∧ -149 ≤ scale ∧ scale ≤ 104

theorem fitsSingle_ofSingle {x : Float32} {negative : Bool} {units : Nat} {scale : Int}
    (h : FloatValue.ofSingle x = .finite negative units scale) : FitsSingle units scale := by
  unfold FloatValue.ofSingle FloatValue.exponentUnit at h
  dsimp only at h
  unfold FitsSingle
  split_ifs at h <;> cases h <;> omega

theorem shortest_bounds {units : Nat} {scale : Int} (h : FitsSingle units scale) (tie : Tie) :
    let decimal := shortest .single tie units scale
    decimal.exponent ≤ 40 ∧ -63 ≤ decimal.exponent ∧ decimal.digits < 10 ^ 103 := by
  -- The search starts between 10 ^ -43 and 10 ^ 40 and takes twenty steps; the number is below
  -- 2 ^ 128, so no hit has more digits than that number in units of 10 ^ -63.
  obtain ⟨hunits, hlow, hhigh⟩ := h
  have hlog : units.log2 ≤ 23 := log2_le_of_lt_pow hunits
  have hvalue : (RoundingInterval.of .single units scale).value ≤ 2 ^ 26 * 2 ^ 102 := by
    have hquarters : (divPower 2 1 1 (2 - scale)).1 ≤ 2 ^ 102 := by
      cases he : 2 - scale with
      | ofNat k => exact Nat.one_le_pow _ _ (by decide)
      | negSucc k =>
        rw [divPower, Nat.one_mul]
        exact Nat.pow_le_pow_right (by decide) (by omega)
    exact Nat.mul_le_mul (by omega) hquarters
  rw [shortest]
  dsimp only
  generalize htop : (scale + units.log2 + 1) * 30103 / 100000 + 2 = top
  obtain ⟨hexponent, hexponent', hdigits⟩ := (RoundingInterval.of .single units scale).search_bounds
    tie (FloatFormat.single.precision / 2 + 8) top
  have hfuel : FloatFormat.single.precision / 2 + 8 = 20 := rfl
  rw [hfuel] at hexponent hexponent' hdigits ⊢
  have hpow : (10 : Nat) ^ (20 + top.natAbs) ≤ 10 ^ 63 :=
    Nat.pow_le_pow_right (by decide) (by omega)
  have hproduct := Nat.mul_le_mul hvalue hpow
  have hless : (2 : Nat) ^ 26 * 2 ^ 102 * 10 ^ 63 + 1 < 10 ^ 103 := by decide
  exact ⟨by omega, by omega, by omega⟩

/-- A numeral with a point or an exponent whose digits stand for powers of ten within `reach`. -/
structure Numeral.Within (n : Numeral) (reach : Int) : Prop where
  marked : n.isInteger = false
  lowest : -reach ≤ n.unit
  highest : n.exponent.getD 0 + (Digit.ofNat n.whole).length ≤ reach

namespace NumberStyle

variable {decimal : Decimal}

theorem within_written {style : NumberStyle} (hpoint : style.pointAlways = true)
    (hhigh : decimal.exponent ≤ 40) (hlow : -63 ≤ decimal.exponent)
    (hdigits : decimal.digits < 10 ^ 103) (negative : Bool) :
    (style.written negative decimal).Within 150 := by
  unfold written
  split
  next e he =>
    rw [Int.ofNat_eq_natCast] at he
    have hwhole : decimal.digits * 10 ^ e < 10 ^ (103 + 40) := by
      rw [Nat.pow_add]
      exact Nat.mul_lt_mul_of_lt_of_le hdigits (Nat.pow_le_pow_right (by decide) (by omega))
        (by decide)
    have hlength := Digit.length_ofNat_le (by decide) hwhole
    constructor
    · simp [Numeral.isInteger, hpoint]
    · simp [Numeral.unit, hpoint]
    · simp only [Option.getD_none, Nat.pow_eq]
      omega
  next e he =>
    have hplaces : e + 1 ≤ 63 := by omega
    have hwhole : decimal.digits / 10 ^ (e + 1) < 10 ^ 103 :=
      (Nat.div_le_self ..).trans_lt hdigits
    have hlength := Digit.length_ofNat_le (by decide) hwhole
    have hbehind := Digit.length_ofNat_le (by omega : e + 1 ≠ 0)
      (Nat.mod_lt decimal.digits (Nat.pow_pos (by decide : 0 < 10)))
    constructor
    · simp [Numeral.isInteger, Digit.ofNat_ne_nil]
    · simp only [Numeral.unit, Option.getD_none, List.length_append, List.length_replicate,
        Nat.pow_eq]
      omega
    · simp only [Option.getD_none, Nat.pow_eq]
      omega

theorem within_scientific (hhigh : decimal.exponent ≤ 40) (hlow : -63 ≤ decimal.exponent)
    (hdigits : decimal.digits < 10 ^ 103) (negative : Bool) :
    (scientific negative decimal).Within 150 := by
  obtain ⟨lead, rest, hrow⟩ := List.exists_cons_of_ne_nil (Digit.ofNat_ne_nil decimal.digits)
  have hlength := Digit.length_ofNat_le (by decide) hdigits
  have hlead := Digit.length_ofNat_le (by decide) (lead.isLt.trans_eq (Nat.pow_one 10).symm)
  rw [hrow, List.length_cons] at hlength
  rw [scientific, hrow]
  constructor
  · simp [Numeral.isInteger]
  · simp only [Numeral.unit, Option.getD_some]
    omega
  · simp only [Option.getD_some]
    omega

/-- Numbers of single precision are written with digits near one, as long as a point or an
exponent marks them. -/
theorem within_numeral {style : NumberStyle} (hpoint : style.pointAlways = true) {units : Nat}
    {scale : Int} (h : FitsSingle units scale) (negative : Bool) :
    (style.numeral .single negative units scale).Within 150 := by
  obtain ⟨hhigh, hlow, hdigits⟩ := shortest_bounds h style.tie
  have hwritten := within_written hpoint hhigh hlow hdigits negative
  by_cases hunits : units = 0
  · rw [numeral, if_pos hunits]
    constructor
    · simp [Numeral.isInteger, hpoint]
    · simp [Numeral.unit, hpoint]
    · simp [Digit.ofNat_of_lt]
  · rw [numeral, if_neg hunits]
    dsimp only
    split
    · exact hwritten
    · split
      · exact hwritten
      · exact within_scientific hhigh hlow hdigits negative

end NumberStyle

end MixerRouting
