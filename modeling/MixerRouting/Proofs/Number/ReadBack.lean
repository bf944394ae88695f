import MixerRouting.Proofs.Number.Digits
import MixerRouting.Proofs.Number.Nearest
import MixerRouting.Proofs.Number.Rounding

/-!
# The shortest decimal reads back

A decimal that the search finds on one of its grids lies in the interval of the
number, and a grid that is finer than half a unit has such a decimal, so the
search finds one before it runs out of fuel. Written out as a numeral the
decimal keeps its value, and the numeral is read as the number it was written
for: `NumberStyle.nearest_numeral`, for every number of double precision.
-/
namespace MixerRouting

/-! ### Hits on a grid -/

namespace RoundingInterval

/-- Whether a rational number lies in the interval. -/
def Contains (r : RoundingInterval) (q : ℚ) : Prop :=
  if r.closed then (r.low / r.denominator : ℚ) ≤ q ∧ q ≤ r.high / r.denominator
  else (r.low / r.denominator : ℚ) < q ∧ q < r.high / r.denominator

/-- An interval with room below and above its number. -/
structure Proper (r : RoundingInterval) : Prop where
  denominator_pos : 0 < r.denominator
  low_lt : r.low < r.value
  lt_high : r.value < r.high

variable {r : RoundingInterval}

/-- The search asks its questions in natural numbers, over the denominators of the interval and of
the grid. -/
theorem holds_iff (hden : 0 < r.denominator) (exponent : ℤ) (point : Nat) :
    r.holds (r.low * (divPower 10 1 1 (-exponent)).2) (r.high * (divPower 10 1 1 (-exponent)).2)
        (point * ((divPower 10 1 1 (-exponent)).1 * r.denominator)) = true ↔
      r.Contains (point * 10 ^ exponent) := by
  have hden' : (0 : ℚ) < r.denominator := by exact_mod_cast hden
  have hpower : (0 : ℚ) < (divPower 10 1 1 (-exponent)).2 := by
    exact_mod_cast divPower_den_pos (by decide) one_pos 1 _
  have hpoint : (point * 10 ^ exponent : ℚ) =
      (point * (divPower 10 1 1 (-exponent)).1 : Nat) / (divPower 10 1 1 (-exponent)).2 := by
    rw [Nat.cast_mul, mul_div_assoc, divPower_neg_value, Nat.cast_ofNat]
  rw [hpoint, Contains, holds, div_le_div_iff₀ hden' hpower, div_le_div_iff₀ hpower hden',
    div_lt_div_iff₀ hden' hpower, div_lt_div_iff₀ hpower hden', ← mul_assoc point]
  split
  · rw [Bool.and_eq_true, decide_eq_true_iff, decide_eq_true_iff]
    exact_mod_cast Iff.rfl
  · rw [Bool.and_eq_true, decide_eq_true_iff, decide_eq_true_iff]
    exact_mod_cast Iff.rfl

/-- A hit on the grid of `10 ^ exponent` is in the interval. -/
theorem contains_of_onGrid? (hden : 0 < r.denominator) {tie : Tie} {exponent : ℤ} {digits : Nat}
    (h : r.onGrid? tie exponent = some digits) : r.Contains (digits * 10 ^ exponent) := by
  rw [← holds_iff hden]
  unfold onGrid? at h
  dsimp only at h
  generalize r.value * (divPower 10 1 1 (-exponent)).2 = value,
    (divPower 10 1 1 (-exponent)).1 * r.denominator = step at h ⊢
  obtain ⟨hfloor, hceil⟩ := roundDiv_bounds tie value step
  split at h
  next hboth =>
    rw [Bool.and_eq_true] at hboth
    cases h
    -- Rounding takes one of the two neighbours, and both are in.
    rcases hfloor.eq_or_lt with hdigits | hdigits
    · rw [← hdigits]
      exact hboth.1
    · rw [← Nat.le_antisymm hdigits hceil]
      exact hboth.2
  split at h
  next hunder => cases h; exact hunder
  split at h
  next hover => cases h; exact hover
  next => cases h

/-- If the upper part of the interval is as wide as a step, one of the two neighbours of the number
on the grid is in. -/
theorem holds_neighbour (r : RoundingInterval) {low value high step : Nat} (hstep : 0 < step)
    (hlow : low < value) (hhigh : value < high) (hfits : value + step ≤ high) :
    r.holds low high (value / step * step) = true ∨
      r.holds low high ((value / step + 1) * step) = true := by
  have hunder : value / step * step ≤ value := Nat.div_mul_le_self value step
  have hover : value < value / step * step + step := Nat.lt_div_mul_add hstep
  rw [Nat.add_mul, Nat.one_mul]
  unfold holds
  split
  · right
    rw [Bool.and_eq_true, decide_eq_true_iff, decide_eq_true_iff]
    omega
  -- An open interval may lose its upper neighbour, but then the number itself is on the grid.
  · by_cases hexact : value / step * step = value
    · left
      rw [Bool.and_eq_true, decide_eq_true_iff, decide_eq_true_iff]
      omega
    · right
      rw [Bool.and_eq_true, decide_eq_true_iff, decide_eq_true_iff]
      omega

/-- A grid whose step is not wider than the upper part of the interval has a hit. -/
theorem exists_onGrid? (h : r.Proper) (tie : Tie) {exponent : ℤ}
    (hfine : (10 : ℚ) ^ exponent ≤ (r.high - r.value) / r.denominator) :
    ∃ digits, r.onGrid? tie exponent = some digits := by
  have hden : (0 : ℚ) < r.denominator := by exact_mod_cast h.denominator_pos
  have hpower := divPower_den_pos (by decide : 0 < 10) one_pos 1 (-exponent)
  have hpower' : (0 : ℚ) < (divPower 10 1 1 (-exponent)).2 := by exact_mod_cast hpower
  have hvalue := divPower_neg_value 10 exponent
  have hstep : 0 < (divPower 10 1 1 (-exponent)).1 * r.denominator := by
    refine Nat.mul_pos (Nat.pos_of_ne_zero fun hzero => ?_) h.denominator_pos
    rw [hzero, Nat.cast_zero, zero_div] at hvalue
    exact (zpow_ne_zero exponent (by decide)) hvalue.symm
  have hfits : r.value * (divPower 10 1 1 (-exponent)).2 +
      (divPower 10 1 1 (-exponent)).1 * r.denominator ≤
        r.high * (divPower 10 1 1 (-exponent)).2 := by
    rw [← Nat.cast_ofNat, ← hvalue, div_le_div_iff₀ hpower' hden] at hfine
    have : (r.value * (divPower 10 1 1 (-exponent)).2 +
      (divPower 10 1 1 (-exponent)).1 * r.denominator : ℚ) ≤
        r.high * (divPower 10 1 1 (-exponent)).2 := by linarith
    exact_mod_cast this
  have hneighbour := r.holds_neighbour hstep (Nat.mul_lt_mul_of_pos_right h.low_lt hpower)
    (Nat.mul_lt_mul_of_pos_right h.lt_high hpower) hfits
  unfold onGrid?
  dsimp only
  split
  · exact ⟨_, rfl⟩
  split
  · exact ⟨_, rfl⟩
  next hnotUnder =>
    rw [if_pos (hneighbour.resolve_left hnotUnder)]
    exact ⟨_, rfl⟩

/-- The search comes to a grid that is fine enough before its fuel is used up. -/
theorem contains_search (h : r.Proper) (tie : Tie) {fuel : Nat} {exponent : ℤ} (hfuel : fuel ≠ 0)
    (hfine : (10 : ℚ) ^ (exponent - fuel + 1) ≤ (r.high - r.value) / r.denominator) :
    r.Contains ((r.search tie fuel exponent).digits *
      10 ^ (r.search tie fuel exponent).exponent) := by
  induction fuel generalizing exponent with
  | zero => exact absurd rfl hfuel
  | succ fuel ih =>
    rw [search]
    cases hgrid : r.onGrid? tie exponent with
    | some digits => exact contains_of_onGrid? h.denominator_pos hgrid
    | none =>
      rcases Nat.eq_zero_or_pos fuel with rfl | hmore
      · have hlast : exponent - ((0 + 1 : Nat) : ℤ) + 1 = exponent := by omega
        rw [hlast] at hfine
        obtain ⟨digits, hhit⟩ := exists_onGrid? h tie hfine
        rw [hgrid] at hhit
        cases hhit
      · have hnext : exponent - 1 - fuel + 1 = exponent - (fuel + 1 : Nat) + 1 := by
          push_cast
          ring
        exact ih hmore.ne' (hnext ▸ hfine)

/-! ### The interval of a number -/

variable {format : FloatFormat} {units : Nat} {scale : ℤ}

theorem quarters_value (scale : ℤ) :
    ((divPower 2 1 1 (2 - scale)).1 : ℚ) / (divPower 2 1 1 (2 - scale)).2 = 2 ^ (scale - 2) := by
  rw [← neg_sub scale 2]
  exact divPower_neg_value 2 (scale - 2)

theorem proper_of (format : FloatFormat) (hpositive : units ≠ 0) (scale : ℤ) :
    (of format units scale).Proper := by
  obtain ⟨hquarters, hden⟩ := divPower_ne_zero one_ne_zero one_ne_zero (2 - scale)
  have hbelow := format.one_le_quartersBelow units scale
  have hpos := Nat.pos_of_ne_zero hquarters
  constructor
  · exact Nat.pos_of_ne_zero hden
  · refine Nat.mul_lt_mul_of_pos_right ?_ hpos
    show 4 * units - format.quartersBelow units scale < 4 * units
    omega
  · refine Nat.mul_lt_mul_of_pos_right ?_ hpos
    omega

theorem roundsTo_of_contains (hpositive : units ≠ 0) {q : ℚ}
    (h : (of format units scale).Contains q) : format.RoundsTo units scale q := by
  have hbelow : format.quartersBelow units scale ≤ 4 * units := by
    have := format.quartersBelow_le_two units scale
    omega
  have hlow : ((of format units scale).low : ℚ) / (of format units scale).denominator =
      (4 * units - format.quartersBelow units scale) * 2 ^ (scale - 2) := by
    show (((4 * units - format.quartersBelow units scale) *
        (divPower 2 1 1 (2 - scale)).1 : Nat) : ℚ)
      / (divPower 2 1 1 (2 - scale)).2 = _
    rw [Nat.cast_mul, mul_div_assoc, quarters_value, Nat.cast_sub hbelow]
    norm_num
  have hhigh : ((of format units scale).high : ℚ) / (of format units scale).denominator =
      (4 * units + 2) * 2 ^ (scale - 2) := by
    show (((4 * units + 2) * (divPower 2 1 1 (2 - scale)).1 : Nat) : ℚ)
      / (divPower 2 1 1 (2 - scale)).2 = _
    rw [Nat.cast_mul, mul_div_assoc, quarters_value]
    norm_num
  have hclosed : (of format units scale).closed = decide (units % 2 = 0) := rfl
  rw [Contains, hlow, hhigh, hclosed] at h
  split at h
  next heven =>
    refine ⟨h.1, h.2, fun hodd => ?_⟩
    rw [decide_eq_true_iff] at heven
    omega
  next => exact ⟨h.1.le, h.2.le, fun _ => h⟩

/-- Half a unit is what the interval has above its number. -/
theorem upper_value (format : FloatFormat) (units : Nat) (scale : ℤ) :
    (((of format units scale).high : ℚ) - (of format units scale).value) /
      (of format units scale).denominator = 2 ^ (scale - 1) := by
  show ((((4 * units + 2) * (divPower 2 1 1 (2 - scale)).1 : Nat) : ℚ) -
    ((4 * units * (divPower 2 1 1 (2 - scale)).1 : Nat) : ℚ)) / (divPower 2 1 1 (2 - scale)).2 = _
  rw [FloatFormat.two_zpow_sub_one, ← quarters_value, mul_div_assoc']
  congr 1
  push_cast
  ring

end RoundingInterval

/-! ### The shortest decimal -/

theorem zpow_pow_comm (a : ℚ) (e : ℤ) (k : Nat) : (a ^ e) ^ k = (a ^ k) ^ e := by
  rw [← zpow_natCast, ← zpow_natCast, ← zpow_mul, ← zpow_mul, mul_comm]

/-- Ten is below the third root of two to the tenth, and above the fourth root of two to the
thirteenth. -/
theorem ten_zpow_le_two_zpow {e s : ℤ} (hpos : 10 * e ≤ 3 * s) (hneg : 13 * e ≤ 4 * s) :
    (10 : ℚ) ^ e ≤ 2 ^ s := by
  rcases le_total 0 e with he | he
  · rw [← pow_le_pow_iff_left₀ (by positivity) (by positivity) three_ne_zero]
    calc ((10 : ℚ) ^ e) ^ 3 = (10 ^ 3) ^ e := zpow_pow_comm 10 e 3
      _ ≤ (2 ^ 10) ^ e := zpow_le_zpow_left₀ he (by norm_num) (by norm_num)
      _ = 2 ^ (10 * e) := by rw [zpow_mul]; norm_num
      _ ≤ 2 ^ (3 * s) := zpow_le_zpow_right₀ one_le_two hpos
      _ = (2 ^ s) ^ 3 := by rw [mul_comm, zpow_mul, zpow_ofNat]
  · rw [← pow_le_pow_iff_left₀ (by positivity) (by positivity) four_ne_zero]
    calc ((10 : ℚ) ^ e) ^ 4 = (10 ^ 4) ^ e := zpow_pow_comm 10 e 4
      _ ≤ (2 ^ 13) ^ e := by
          rw [← neg_neg e, zpow_neg, zpow_neg _ (-e)]
          exact inv_anti₀ (by positivity)
            (zpow_le_zpow_left₀ (neg_nonneg.mpr he) (by norm_num) (by norm_num))
      _ = 2 ^ (13 * e) := by rw [zpow_mul]; norm_num
      _ ≤ 2 ^ (4 * s) := zpow_le_zpow_right₀ one_le_two hneg
      _ = (2 ^ s) ^ 4 := by rw [mul_comm, zpow_mul, zpow_ofNat]

/-- The search for a number of double precision has enough fuel. -/
theorem roundsTo_shortest {units : Nat} {scale : ℤ} (tie : Tie) (hpositive : units ≠ 0)
    (h : FloatFormat.double.Holds units scale) :
    FloatFormat.double.RoundsTo units scale
      ((shortest .double tie units scale).digits *
        10 ^ (shortest .double tie units scale).exponent) := by
  have hlog : units.log2 < 53 := (Nat.log2_lt hpositive).mpr h.units_lt
  have hleast : -1074 ≤ scale := h.least_le
  have hbelow : scale + (53 : Nat) ≤ 1024 := h.below
  refine RoundingInterval.roundsTo_of_contains hpositive
    (RoundingInterval.contains_search (RoundingInterval.proper_of .double hpositive scale) tie
      (by decide) ?_)
  rw [RoundingInterval.upper_value]
  have hfuel : FloatFormat.double.precision / 2 + 8 = 34 := rfl
  rw [hfuel]
  exact ten_zpow_le_two_zpow (by omega) (by omega)

/-! ### The numeral -/

namespace Digit

theorem value_lt (digits : List Digit) : value digits < 10 ^ digits.length := by
  induction digits with
  | nil => simp
  | cons d digits ih =>
    have hd := d.isLt
    rw [← List.singleton_append, value_append, value_singleton, List.length_append,
      List.length_singleton, Nat.pow_add, Nat.pow_one]
    calc d.val * 10 ^ digits.length + value digits < (d.val + 1) * 10 ^ digits.length := by
          rw [Nat.add_mul, Nat.one_mul]
          omega
      _ ≤ 10 * 10 ^ digits.length := Nat.mul_le_mul_right _ hd

theorem lt_length_ofNat (n : Nat) : n < 10 ^ (ofNat n).length := by
  simpa using value_lt (ofNat n)

theorem le_length_ofNat {n : Nat} (hn : n ≠ 0) : 10 ^ ((ofNat n).length - 1) ≤ n := by
  by_contra h
  have hlength : (ofNat n).length ≠ 0 := by simp [ofNat_ne_nil]
  rcases Nat.eq_zero_or_pos ((ofNat n).length - 1) with hone | hmore
  · rw [hone, Nat.pow_zero] at h
    omega
  · have := length_ofNat_le hmore.ne' (Nat.lt_of_not_le h)
    omega

@[simp] theorem value_replicate_zero (count : Nat) : value (List.replicate count zero) = 0 := by
  induction count with
  | zero => rfl
  | succ count ih => exact ih

end Digit

namespace Numeral

theorem digits_eq (n : Numeral) :
    n.digits = n.whole * 10 ^ n.fraction.length + Digit.value n.fraction :=
  Digit.foldl_eq n.fraction n.whole

/-- The leading digit of a numeral says how large the numeral is. -/
theorem leading_bounds {n : Numeral} (hn : n.digits ≠ 0) :
    let leading := n.unit + (Digit.ofNat n.digits).length
    (10 : ℚ) ^ (leading - 1) ≤ n.digits * 10 ^ n.unit ∧
      (n.digits * 10 ^ n.unit : ℚ) < 10 ^ leading := by
  have hlength : 1 ≤ (Digit.ofNat n.digits).length :=
    Nat.one_le_iff_ne_zero.mpr (by simp [Digit.ofNat_ne_nil])
  have hlow : (10 : ℚ) ^ ((Digit.ofNat n.digits).length - 1) ≤ n.digits := by
    exact_mod_cast Digit.le_length_ofNat hn
  have hhigh : (n.digits : ℚ) < 10 ^ (Digit.ofNat n.digits).length := by
    exact_mod_cast Digit.lt_length_ofNat n.digits
  have hsplit : n.unit + (Digit.ofNat n.digits).length - 1 =
      ((Digit.ofNat n.digits).length - 1 : Nat) + n.unit := by omega
  constructor
  · rw [hsplit, zpow_add₀ (by norm_num), zpow_natCast]
    gcongr
  · rw [add_comm, zpow_add₀ (by norm_num), zpow_natCast]
    gcongr

/-- Reading a numeral whose value lies in the interval of a number; the short cuts for numbers out
of range are not taken. -/
theorem nearest_eq {format : FloatFormat} {units : Nat} {scale : ℤ} {n : Numeral}
    (hp : 2 ≤ format.precision) (hleast : format.leastScale ≤ 0) (hceiling : 0 ≤ format.ceiling)
    (hholds : format.Holds units scale) (hpositive : units ≠ 0)
    (hn : format.RoundsTo units scale (n.digits * 10 ^ n.unit)) :
    n.nearest format = .finite n.negative units scale := by
  have hdigits : n.digits ≠ 0 := by
    intro hzero
    simpa [hzero] using hn.pos hpositive
  obtain ⟨hlow, hhigh⟩ := leading_bounds hdigits
  have hnotAbove : ¬format.ceiling < n.unit + (Digit.ofNat n.digits).length := by
    intro hlarge
    have hpowers : (2 : ℚ) ^ format.ceiling ≤ 10 ^ (n.unit + (Digit.ofNat n.digits).length - 1) :=
      (zpow_le_zpow_left₀ hceiling (by norm_num) (by norm_num)).trans
        (zpow_le_zpow_right₀ (by norm_num) (by omega))
    have hbelow : (2 : ℚ) ^ (scale + format.precision) ≤ 2 ^ format.ceiling :=
      zpow_le_zpow_right₀ one_le_two hholds.below
    have hless := hn.lt hholds
    linarith
  have hnotBelow : ¬n.unit + (Digit.ofNat n.digits).length < format.leastScale := by
    intro hsmall
    have hpowers : (10 : ℚ) ^ (n.unit + (Digit.ofNat n.digits).length) ≤ 2 ^ (scale - 1) :=
      ten_zpow_le_two_zpow (by have := hholds.least_le; omega) (by have := hholds.least_le; omega)
    have hge := hn.ge hpositive
    linarith
  have hvalue := divPower_value 10 n.digits 1 (-n.unit)
  rw [Nat.cast_one, div_one, zpow_neg, div_inv_eq_mul, Nat.cast_ofNat] at hvalue
  rw [nearest, if_neg hdigits]
  dsimp only
  rw [if_neg hnotAbove, if_neg hnotBelow]
  exact FloatFormat.nearest_eq hp (divPower_den_pos (by decide) one_pos _ _) hholds hpositive
    (hvalue.symm ▸ hn) n.negative

end Numeral

namespace NumberStyle

variable {style : NumberStyle}

theorem written_negative (negative : Bool) (decimal : Decimal) :
    (style.written negative decimal).negative = negative := by
  unfold written
  split <;> rfl

/-- Writing a decimal in full does not change its value. -/
theorem written_value (hpoint : style.pointAlways = true) (negative : Bool) (decimal : Decimal) :
    ((style.written negative decimal).digits : ℚ) * 10 ^ (style.written negative decimal).unit =
      decimal.digits * 10 ^ decimal.exponent := by
  obtain ⟨digits, exponent⟩ := decimal
  cases exponent with
  | ofNat e => simp [written, hpoint, Numeral.digits_eq, Numeral.unit, Digit.value, Digit.zero]
  | negSucc e =>
    have hlength := Digit.length_ofNat_le (by omega : e + 1 ≠ 0)
      (Nat.mod_lt digits (Nat.pow_pos (by decide : 0 < 10)))
    have hplaces : e + 1 - (Digit.ofNat (digits % 10 ^ (e + 1))).length +
        (Digit.ofNat (digits % 10 ^ (e + 1))).length = e + 1 := Nat.sub_add_cancel hlength
    have hdigits : (style.written negative ⟨digits, .negSucc e⟩).digits = digits := by
      simp only [written, Numeral.digits_eq, Nat.pow_eq, List.length_append, List.length_replicate,
        hplaces, Digit.value_append, Digit.value_replicate_zero, Digit.value_ofNat, Nat.zero_mul,
        Nat.zero_add]
      exact Nat.div_add_mod' digits (10 ^ (e + 1))
    have hunit : (style.written negative ⟨digits, .negSucc e⟩).unit = .negSucc e := by
      simp only [written, Numeral.unit, Nat.pow_eq, List.length_append, List.length_replicate,
        hplaces, Option.getD_none]
      omega
    rw [hdigits, hunit]

/-- Without bounds for the exponent and with a point always, a number is written in full, with
digits behind the point. -/
theorem numeral_plain (hplain : style.plain = none)
    (hpoint : style.pointAlways = true) (format : FloatFormat) (negative : Bool) (units : Nat)
    (scale : Int) :
    (style.numeral format negative units scale).fraction ≠ [] ∧
      (style.numeral format negative units scale).exponent = none := by
  unfold numeral
  split
  · simp
  · simp only [hplain, written]
    split
    · simp [hpoint]
    · simp [Digit.ofNat_ne_nil]

/-- The numeral of a number of double precision is read as that number. -/
theorem nearest_numeral (hplain : style.plain = none) (hpoint : style.pointAlways = true)
    {units : Nat} {scale : ℤ} (h : FloatFormat.double.Holds units scale) (negative : Bool) :
    (style.numeral .double negative units scale).nearest .double =
      .finite negative units scale := by
  unfold numeral
  split
  next hzero =>
    subst hzero
    rw [h.scale_eq]
    rfl
  next hpositive =>
    rw [hplain]
    dsimp only
    rw [Numeral.nearest_eq (by decide) (by decide) (by decide) h hpositive, written_negative]
    rw [written_value hpoint]
    exact roundsTo_shortest style.tie hpositive h

end NumberStyle

end MixerRouting
