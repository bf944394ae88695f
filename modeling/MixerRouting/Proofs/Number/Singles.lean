import Mathlib
import MixerRouting.Proofs.Number.Nearest

/-!
# Single precision within double precision

A finite word of single precision is a number of its format, double precision
has that number too, and narrowing it again gives the same word back, the sign
of zero included.
-/
namespace MixerRouting

open FloatValue (exponentUnit signUnit)

/-! ### Words -/

/-- A finite word has an exponent field that is not full. -/
theorem exponent_ne_of_isFinite {x : Float32} (h : x.isFinite = true) :
    x.toBits.toNat / exponentUnit % 256 ≠ 255 := by
  intro hfull
  have hfield : @Float.Model.UnpackedFloat.unpackExponent .binary32 x.toBits.toBitVec = -1#8 := by
    rw [Float.Model.UnpackedFloat.unpackExponent_def]
    apply BitVec.eq_of_toNat_eq
    rw [BitVec.extractLsb'_toNat, Nat.shiftRight_eq_div_pow]
    exact hfull
  have hnot : (Float.Model.UnpackedFloat.unpack .binary32 x.toBits.toBitVec).isFinite = false := by
    unfold Float.Model.UnpackedFloat.unpack
    dsimp only
    rw [if_pos hfield]
    split <;> rfl
  rw [show x.isFinite = _ from hnot] at h
  cases h

theorem exists_ofSingle_of_isFinite {x : Float32} (h : x.isFinite = true) :
    ∃ negative units scale, FloatValue.ofSingle x = .finite negative units scale := by
  unfold FloatValue.ofSingle
  dsimp only
  rw [if_neg (exponent_ne_of_isFinite h)]
  split
  · exact ⟨_, _, _, rfl⟩
  · exact ⟨_, _, _, rfl⟩

variable {x : Float32} {negative : Bool} {units : Nat} {scale : ℤ}

theorem holds_ofSingle (h : FloatValue.ofSingle x = .finite negative units scale) :
    FloatFormat.single.Holds units scale := by
  unfold FloatValue.ofSingle exponentUnit at h
  dsimp only at h
  split_ifs at h <;> cases h
  · exact ⟨by simp only [FloatFormat.single]; omega, le_rfl, fun h => absurd h (lt_irrefl _),
      by decide⟩
  · refine ⟨?_, ?_, ?_, ?_⟩ <;> simp only [FloatFormat.single] <;> omega

/-- Sign, exponent and fraction make up the word they were taken from. -/
theorem word_ofSingle (h : FloatValue.ofSingle x = .finite negative units scale) :
    (FloatValue.finite negative units scale).word = x.toBits.toNat := by
  have hword := x.toBits.toNat_lt
  unfold FloatValue.ofSingle exponentUnit signUnit at h
  dsimp only at h
  split_ifs at h <;> cases h <;>
    simp only [FloatValue.word, exponentUnit, signUnit, decide_eq_true_eq]
  · split <;> omega
  · split <;> omega

/-! ### Widening and narrowing -/

/-- Double precision has every number of single precision. -/
theorem exists_double (h : FloatFormat.single.Holds units scale) :
    ∃ units' scale', FloatFormat.double.Holds units' scale' ∧
      (units * 2 ^ scale : ℚ) = units' * 2 ^ scale' := by
  rcases Nat.eq_zero_or_pos units with rfl | hpositive
  · exact ⟨0, -1074, ⟨by decide, by decide, by decide, by decide⟩, by simp⟩
  · have hlog : units.log2 < 24 := (Nat.log2_lt hpositive.ne').mpr h.units_lt
    have hleast : -149 ≤ scale := h.least_le
    have hbelow : scale + (24 : Nat) ≤ 128 := h.below
    let shift := 52 - units.log2
    have hlow : 2 ^ units.log2 * 2 ^ shift ≤ units * 2 ^ shift :=
      Nat.mul_le_mul_right _ (Nat.log2_self_le hpositive.ne')
    have hhigh : units * 2 ^ shift < 2 ^ (units.log2 + 1) * 2 ^ shift :=
      Nat.mul_lt_mul_of_pos_right Nat.lt_log2_self (Nat.two_pow_pos shift)
    rw [← Nat.pow_add, (by omega : units.log2 + shift = 52)] at hlow
    rw [← Nat.pow_add, (by omega : units.log2 + 1 + shift = 53)] at hhigh
    refine ⟨units * 2 ^ shift, scale - shift, ⟨hhigh, ?_, fun _ => hlow, ?_⟩, ?_⟩
    · simp only [FloatFormat.double]
      omega
    · simp only [FloatFormat.double]
      omega
    · rw [zpow_sub₀ two_ne_zero, zpow_natCast]
      push_cast
      field_simp

/-- A value that is the number of a word is narrowed to that word. -/
theorem toSingle_eq (h : FloatValue.ofSingle x = .finite negative units scale) {units' : Nat}
    {scale' : ℤ} (hvalue : (units' * 2 ^ scale' : ℚ) = units * 2 ^ scale) :
    (FloatValue.finite negative units' scale').toSingle = x := by
  rw [FloatValue.toSingle,
    FloatFormat.ofValue_eq (by decide) (holds_ofSingle h) hvalue negative, word_ofSingle h,
    UInt32.ofNat_toNat, Float32.ofBits_toBits]

/-- A finite word in double precision, from which it can be told again. -/
theorem exists_widened (hfinite : x.isFinite = true) :
    ∃ negative units scale,
      FloatFormat.double.ofValue (FloatValue.ofSingle x) = .finite negative units scale ∧
        FloatFormat.double.Holds units scale ∧
        (FloatValue.finite negative units scale).toSingle = x := by
  obtain ⟨negative, units, scale, hsingle⟩ := exists_ofSingle_of_isFinite hfinite
  obtain ⟨units', scale', hholds, hvalue⟩ := exists_double (holds_ofSingle hsingle)
  refine ⟨negative, units', scale', ?_, hholds, toSingle_eq hsingle hvalue.symm⟩
  rw [hsingle]
  exact FloatFormat.ofValue_eq (by decide) hholds hvalue negative

end MixerRouting
