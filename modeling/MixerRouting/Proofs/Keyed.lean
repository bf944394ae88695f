import Mathlib.Data.List.InsertIdx
import Mathlib.Data.List.Nodup

/-!
# Lists with distinct keys

When no two elements of a list share a key, the place of an element is as good
as its key: an edit at a place is the same edit at every element with the key.
The edits of a wiring work at places and are understood by keys.
-/
namespace MixerRouting.Keyed
variable {α β : Type} {key : α → β}

theorem key_ne_head {x y : α} {xs : List α} (hd : ((x :: xs).map key).Nodup) (hy : y ∈ xs) :
    key y ≠ key x := by
  rw [List.map_cons, List.nodup_cons] at hd
  exact fun h => hd.1 (h ▸ List.mem_map_of_mem hy)

/-- A place is determined by the key of its element. -/
theorem place_unique {xs : List α} {i j : Nat} {a b : α} (hd : (xs.map key).Nodup)
    (hi : xs[i]? = some a) (hj : xs[j]? = some b) (hk : key a = key b) : i = j := by
  obtain ⟨hil, rfl⟩ := List.getElem?_eq_some_iff.mp hi
  obtain ⟨hjl, rfl⟩ := List.getElem?_eq_some_iff.mp hj
  rw [← List.getElem_map key (h := by simpa using hil),
    ← List.getElem_map key (h := by simpa using hjl)] at hk
  exact hd.getElem_inj_iff.mp hk

variable [DecidableEq β]

/-- The search for a key finds the element that has it. -/
theorem find?_eq_some_iff {xs : List α} (hd : (xs.map key).Nodup) (k : β) (a : α) :
    xs.find? (fun x => key x = k) = some a ↔ a ∈ xs ∧ key a = k := by
  constructor
  · intro h
    exact ⟨List.mem_of_find?_eq_some h, by simpa using List.find?_some h⟩
  · rintro ⟨ha, rfl⟩
    cases h : xs.find? fun x => key x = key a with
    | none => exact absurd (decide_eq_true rfl) (List.find?_eq_none.mp h a ha)
    | some b =>
      have hb : key b = key a := by simpa using List.find?_some h
      rw [List.inj_on_of_nodup_map hd (List.mem_of_find?_eq_some h) ha hb]

/-- An element is the only one with its key. -/
theorem filter_eq_singleton {xs : List α} {a : α} (hd : (xs.map key).Nodup) (ha : a ∈ xs) :
    (xs.filter fun x => key x = key a) = [a] := by
  induction xs with
  | nil => cases ha
  | cons x xs ih =>
    rcases List.mem_cons.mp ha with rfl | hm
    · have hrest : (xs.filter fun x => key x = key a) = [] :=
        List.filter_eq_nil_iff.mpr fun y hy h => key_ne_head hd hy (of_decide_eq_true h)
      rw [List.filter_cons, if_pos (decide_eq_true rfl), hrest]
    · have hne : key x ≠ key a := (key_ne_head hd hm).symm
      rw [List.filter_cons, decide_eq_false hne]
      exact ih hd.of_cons hm

/-- Replacing the element at a place replaces what has its key. -/
theorem set_eq_map {xs : List α} {i : Nat} {a : α} (b : α) (hd : (xs.map key).Nodup)
    (hi : xs[i]? = some a) :
    xs.set i b = xs.map fun x => if key x = key a then b else x := by
  induction xs generalizing i with
  | nil => simp at hi
  | cons x xs ih =>
    cases i with
    | zero =>
      obtain rfl : x = a := by simpa using hi
      have hrest : ∀ y ∈ xs, (if key y = key x then b else y) = id y :=
        fun y hy => if_neg (key_ne_head hd hy)
      simp [List.map_congr_left hrest]
    | succ i =>
      have ha : xs[i]? = some a := by simpa using hi
      have hne : key x ≠ key a := (key_ne_head hd (List.mem_of_getElem? ha)).symm
      simp [ih hd.of_cons ha, hne]

/-- Erasing the element at a place erases what has its key. -/
theorem eraseIdx_eq_filter {xs : List α} {i : Nat} {a : α} (hd : (xs.map key).Nodup)
    (hi : xs[i]? = some a) : xs.eraseIdx i = xs.filter fun x => key x ≠ key a := by
  induction xs generalizing i with
  | nil => simp at hi
  | cons x xs ih =>
    cases i with
    | zero =>
      obtain rfl : x = a := by simpa using hi
      have hrest : ∀ y ∈ xs, decide (key y ≠ key x) = true :=
        fun y hy => decide_eq_true (key_ne_head hd hy)
      simpa using (List.filter_eq_self.mpr hrest).symm
    | succ i =>
      have ha : xs[i]? = some a := by simpa using hi
      have hne : key x ≠ key a := (key_ne_head hd (List.mem_of_getElem? ha)).symm
      simp [ih hd.of_cons ha, hne]

end MixerRouting.Keyed
