import Mathlib.Tactic.Ring
import MixerRouting.Number.Numeral

/-!
# Rows of digits

A number and the row of its digits say the same: the row has the number's
value, starts with a zero only if the number is zero, and is as long as the
number is large. A row is read back from a text up to the first character that
is no digit.
-/
namespace MixerRouting.Digit

/-! ### The row of a number -/

theorem prepend_append (fuel n : Nat) (rest more : List Digit) :
    prepend fuel n (rest ++ more) = prepend fuel n rest ++ more := by
  induction fuel generalizing n rest with
  | zero => rfl
  | succ fuel ih =>
    rw [prepend, prepend]
    split
    · rfl
    · exact ih (n / 10) (last n :: rest)

/-- Fuel above the number is enough, and more makes no difference. -/
theorem prepend_of_lt {fuel fuel' n : Nat} (h : n < fuel) (h' : n < fuel') (rest : List Digit) :
    prepend fuel n rest = prepend fuel' n rest := by
  induction fuel generalizing n fuel' rest with
  | zero => omega
  | succ fuel ih =>
    obtain ⟨fuel', rfl⟩ := Nat.exists_eq_add_one_of_ne_zero (Nat.ne_zero_of_lt h')
    rw [prepend, prepend]
    split
    · rfl
    · exact ih (by omega) (by omega) _

theorem ofNat_of_lt {n : Nat} (h : n < 10) : ofNat n = [last n] := by
  rw [ofNat, prepend, if_pos h]

theorem ofNat_of_le {n : Nat} (h : 10 ≤ n) : ofNat n = ofNat (n / 10) ++ [last n] := by
  have hless : n / 10 < n := by omega
  rw [ofNat, prepend, if_neg (by omega), prepend_of_lt hless (Nat.lt_succ_self _),
    ← List.nil_append [last n], prepend_append]
  rfl

theorem ofNat_ne_nil (n : Nat) : ofNat n ≠ [] := by
  rcases Nat.lt_or_ge n 10 with h | h
  · simp [ofNat_of_lt h]
  · simp [ofNat_of_le h]

/-! ### Values -/

/-- Digits go on from what stands in front of them. -/
theorem foldl_eq (digits : List Digit) (n : Nat) :
    digits.foldl (fun n d => 10 * n + d.val) n = n * 10 ^ digits.length + value digits := by
  induction digits generalizing n with
  | nil => simp
  | cons d rest ih =>
    rw [value, List.foldl_cons, List.foldl_cons, ih (10 * n + d.val), ih (10 * 0 + d.val),
      List.length_cons, Nat.pow_succ]
    ring

theorem value_append (front back : List Digit) :
    value (front ++ back) = value front * 10 ^ back.length + value back := by
  rw [value, List.foldl_append, foldl_eq back]
  rfl

@[simp] theorem value_singleton (d : Digit) : value [d] = d.val := by simp [value]

@[simp] theorem value_ofNat (n : Nat) : value (ofNat n) = n := by
  induction n using Nat.strongRecOn with
  | ind n ih =>
    rcases Nat.lt_or_ge n 10 with h | h
    · rw [ofNat_of_lt h, value_singleton]
      exact Nat.mod_eq_of_lt h
    · rw [ofNat_of_le h, value_append, ih (n / 10) (by omega), value_singleton]
      exact Nat.div_add_mod' n 10

/-- The row of a positive number does not start with a zero. -/
theorem ofNat_eq_cons {n : Nat} (h : n ≠ 0) :
    ∃ lead rest, ofNat n = lead :: rest ∧ lead ≠ zero := by
  induction n using Nat.strongRecOn with
  | ind n ih =>
    rcases Nat.lt_or_ge n 10 with hn | hn
    · refine ⟨last n, [], ofNat_of_lt hn, fun hzero => h ?_⟩
      have hmod : n % 10 = 0 := congrArg Fin.val hzero
      omega
    · obtain ⟨lead, rest, hrow, hlead⟩ := ih (n / 10) (by omega) (by omega)
      exact ⟨lead, rest ++ [last n], by rw [ofNat_of_le hn, hrow, List.cons_append], hlead⟩

theorem length_ofNat_le {n count : Nat} (hcount : count ≠ 0) (h : n < 10 ^ count) :
    (ofNat n).length ≤ count := by
  induction count generalizing n with
  | zero => exact absurd rfl hcount
  | succ count ih =>
    rcases Nat.lt_or_ge n 10 with hn | hn
    · simp [ofNat_of_lt hn]
    · have hrest : n / 10 < 10 ^ count := by
        rw [Nat.pow_succ] at h
        omega
      have hpositive : count ≠ 0 := by
        rintro rfl
        simp at hrest
        omega
      have := ih hpositive hrest
      simp [ofNat_of_le hn]
      omega

/-! ### Rows in a text -/

/-- A row is read up to what follows it, if that does not go on with a digit. -/
theorem span_append {rest : List Char} (h : span rest = ([], rest)) (digits : List Digit) :
    span (digits.map char ++ rest) = (digits, rest) := by
  induction digits with
  | nil => exact h
  | cons d digits ih => simp [span, ih]

theorem char_eq_zero_iff : ∀ d : Digit, char d = '0' ↔ d = zero := by decide

/-- Numbers are written with the digits that they are read with. -/
theorem toList_toString (n : Nat) : (toString n).toList = (ofNat n).map char := by
  have hdigit : ∀ d : Digit, Nat.digitChar d.val = char d := by decide
  show n.repr.toList = _
  rw [Nat.toList_repr]
  induction n using Nat.strongRecOn with
  | ind n ih =>
    by_cases hn : n < 10
    · have hlast : last n = ⟨n, hn⟩ := Fin.ext (Nat.mod_eq_of_lt hn)
      rw [Nat.toDigits_of_lt_base hn, ofNat_of_lt hn, hlast, List.map_singleton,
        ← hdigit ⟨n, hn⟩]
    · have hle : 10 ≤ n := Nat.le_of_not_lt hn
      rw [Nat.toDigits_of_base_le (by decide) hle, ofNat_of_le hle, List.map_append,
        List.map_singleton, ih (n / 10) (by omega), ← hdigit (last n), last]

end MixerRouting.Digit
