import Mathlib.Algebra.Order.Field.Power
import Mathlib.Tactic.FieldSimp
import Mathlib.Tactic.Linarith
import Mathlib.Tactic.Positivity
import Mathlib.Tactic.Ring
import MixerRouting.Number.Rounding

/-!
# Quotients as rational numbers

The arithmetic of rounding works on pairs of natural numbers. Here each step
is said of the rational number that a pair stands for: what a shift by a power
does to it, which power of two lies at or below it, and which natural number
is nearest to it.
-/
namespace MixerRouting

theorem divPower_den_pos {base den : Nat} (hbase : 0 < base) (hd : 0 < den) (num : Nat) (e : Int) :
    0 < (divPower base num den e).2 := by
  cases e with
  | ofNat e => exact Nat.mul_pos hd (Nat.pow_pos hbase)
  | negSucc e => exact hd

theorem divPower_value (base num den : Nat) (e : Int) :
    ((divPower base num den e).1 : ℚ) / (divPower base num den e).2 =
      num / den / (base : ℚ) ^ e := by
  cases e with
  | ofNat e => simp [divPower, div_div]
  | negSucc e => simp [divPower, zpow_negSucc, div_mul_eq_mul_div]

/-- One, shifted the other way, is the power itself. -/
theorem divPower_neg_value (base : Nat) (e : ℤ) :
    ((divPower base 1 1 (-e)).1 : ℚ) / (divPower base 1 1 (-e)).2 = (base : ℚ) ^ e := by
  rw [divPower_value, zpow_neg]
  simp

/-! ### The power of two at or below a quotient -/

variable {num den : Nat}

theorem two_zpow_log2_le {n : Nat} (hn : 0 < n) : (2 : ℚ) ^ (n.log2 : ℤ) ≤ n := by
  rw [zpow_natCast]
  exact_mod_cast Nat.log2_self_le hn.ne'

theorem lt_two_zpow_log2 (n : Nat) : (n : ℚ) < 2 ^ ((n.log2 : ℤ) + 1) := by
  have h : n < 2 ^ (n.log2 + 1) := Nat.lt_log2_self
  exact_mod_cast h

theorem floorLog2_spec (hn : 0 < num) (hd : 0 < den) :
    (2 : ℚ) ^ floorLog2 num den ≤ num / den ∧ (num / den : ℚ) < 2 ^ (floorLog2 num den + 1) := by
  have hden : (0 : ℚ) < den := by exact_mod_cast hd
  let guess : ℤ := (num.log2 : ℤ) - den.log2
  -- The guess is the power of the quotient or one too large.
  have hlow : (2 : ℚ) ^ (guess - 1) ≤ num / den := by
    rw [le_div_iff₀ hden]
    calc (2 : ℚ) ^ (guess - 1) * den ≤ 2 ^ (guess - 1) * 2 ^ ((den.log2 : ℤ) + 1) := by
          gcongr
          exact (lt_two_zpow_log2 den).le
      _ = 2 ^ (num.log2 : ℤ) := by
          rw [← zpow_add₀ two_ne_zero]
          congr 1
          omega
      _ ≤ num := two_zpow_log2_le hn
  have hhigh : (num / den : ℚ) < 2 ^ (guess + 1) := by
    rw [div_lt_iff₀ hden]
    calc (num : ℚ) < 2 ^ ((num.log2 : ℤ) + 1) := lt_two_zpow_log2 num
      _ = 2 ^ (guess + 1) * 2 ^ (den.log2 : ℤ) := by
          rw [← zpow_add₀ two_ne_zero]
          congr 1
          omega
      _ ≤ 2 ^ (guess + 1) * den := by
          gcongr
          exact two_zpow_log2_le hd
  have hshifted : ((divPower 2 num den guess).1 : ℚ) / (divPower 2 num den guess).2 =
      num / den / 2 ^ guess := divPower_value 2 num den guess
  have hpos : (0 : ℚ) < (divPower 2 num den guess).2 := by
    exact_mod_cast divPower_den_pos (by decide) hd num guess
  have hpower : (0 : ℚ) < 2 ^ guess := by positivity
  have hcompare : (divPower 2 num den guess).2 ≤ (divPower 2 num den guess).1 ↔
      (2 : ℚ) ^ guess ≤ num / den := by
    rw [← one_le_div₀ hpower, ← hshifted, one_le_div₀ hpos, Nat.cast_le]
  unfold floorLog2
  dsimp only
  split
  next h => exact ⟨hcompare.mp h, hhigh⟩
  next h =>
    rw [sub_add_cancel]
    exact ⟨hlow, lt_of_not_ge fun hge => h (hcompare.mpr hge)⟩

theorem floorLog2_lt {k : ℤ} (hn : 0 < num) (hd : 0 < den) (h : (num / den : ℚ) < 2 ^ k) :
    floorLog2 num den < k :=
  (zpow_lt_zpow_iff_right₀ one_lt_two).mp ((floorLog2_spec hn hd).1.trans_lt h)

theorem le_floorLog2 {k : ℤ} (hn : 0 < num) (hd : 0 < den) (h : (2 : ℚ) ^ k ≤ num / den) :
    k ≤ floorLog2 num den :=
  Int.lt_add_one_iff.mp
    ((zpow_lt_zpow_iff_right₀ one_lt_two).mp (h.trans_lt (floorLog2_spec hn hd).2))

/-! ### The nearest natural number -/

/-- A quotient within a half of a natural number is rounded to it, at a distance of exactly a half
if the number is even. -/
theorem roundDiv_toEven_eq {u : Nat} (hd : 0 < den) (hlow : (u : ℚ) - 1 / 2 ≤ num / den)
    (hhigh : (num / den : ℚ) ≤ u + 1 / 2)
    (hodd : u % 2 = 1 → (u : ℚ) - 1 / 2 < num / den ∧ (num / den : ℚ) < u + 1 / 2) :
    roundDiv .toEven num den = u := by
  have hden : (0 : ℚ) < den := by exact_mod_cast hd
  -- All distances as numbers of half units of the denominator.
  have hbelow : 2 * (u * den) ≤ 2 * num + den := by
    rw [le_div_iff₀ hden] at hlow
    have : (2 * (u * den) : ℚ) ≤ 2 * num + den := by linarith
    exact_mod_cast this
  have habove : 2 * num ≤ 2 * (u * den) + den := by
    rw [div_le_iff₀ hden] at hhigh
    have : (2 * num : ℚ) ≤ 2 * (u * den) + den := by linarith
    exact_mod_cast this
  have hinside : u % 2 = 1 → 2 * (u * den) < 2 * num + den ∧ 2 * num < 2 * (u * den) + den := by
    intro h
    obtain ⟨hlow', hhigh'⟩ := hodd h
    rw [lt_div_iff₀ hden] at hlow'
    rw [div_lt_iff₀ hden] at hhigh'
    have hlow'' : (2 * (u * den) : ℚ) < 2 * num + den := by linarith
    have hhigh'' : (2 * num : ℚ) < 2 * (u * den) + den := by linarith
    exact ⟨by exact_mod_cast hlow'', by exact_mod_cast hhigh''⟩
  have hsplit : num / den * den + num % den = num := Nat.div_add_mod' num den
  have hrest : num % den < den := Nat.mod_lt num hd
  have hfloor : num / den = u ∨ num / den + 1 = u := by
    have hle : num / den ≤ u := by
      apply Nat.le_of_lt_succ
      rw [Nat.div_lt_iff_lt_mul hd, Nat.succ_mul]
      omega
    have hge : u ≤ num / den + 1 := by
      have hless : u * den < (num / den + 2) * den := by
        rw [Nat.add_mul]
        omega
      exact Nat.le_of_lt_succ (Nat.lt_of_mul_lt_mul_right hless)
    omega
  unfold roundDiv
  dsimp only
  rcases hfloor with hu | hu
  · rw [hu] at hsplit ⊢
    split
    · rfl
    split
    · omega
    · rw [if_pos (by omega)]
  · rw [← hu, Nat.add_mul, Nat.one_mul] at hbelow habove hinside
    split
    · omega
    split
    · exact hu
    · rw [if_neg (by omega), hu]

end MixerRouting
