import Mathlib.Algebra.Order.Ring.Nat
import MixerRouting.Port.EventQueue

/-!
# Windows in a row

A cycle may be processed in one window or in several. What matters about
several windows is that no frame lies in two of them; windows in a row, each of
which begins where the one before it ends, are of this kind and cover what one
window over all their frames covers. A gate says what is left of a buffer when
only some frames pass, and copying or mixing in one more window opens the gate
there. Events come window by window, which is their own order if they are in
order of time.
-/
namespace MixerRouting

namespace Window

/-- No frame lies in both windows. -/
def Apart (v w : Window) : Prop := ∀ i, v.covers i = true → w.covers i = false

/-- Whether some window covers a frame. -/
def someCovers (ws : List Window) (i : Nat) : Bool := ws.any fun w => w.covers i

/-- Windows of some lengths, each of which begins where the one before it ends. -/
def row (offset : Nat) : List Nat → List Window
  | [] => []
  | length :: rest => ⟨offset, length⟩ :: row (offset + length) rest

theorem someCovers_concat (ws : List Window) (w : Window) (i : Nat) :
    someCovers (ws ++ [w]) i = (someCovers ws i || w.covers i) := by
  simp [someCovers]

theorem someCovers_singleton (w : Window) : someCovers [w] = w.covers := by
  funext i
  exact Bool.or_false _

theorem someCovers_eq_false {ws : List Window} {w : Window} (h : ∀ v ∈ ws, v.Apart w) {i : Nat}
    (hi : w.covers i = true) : someCovers ws i = false := by
  apply List.any_eq_false.mpr
  intro v hv hvi
  rw [h v hv i hvi] at hi
  cases hi

theorem covers_mk_iff (offset length i : Nat) :
    (Window.mk offset length).covers i = true ↔ offset ≤ i ∧ i < offset + length :=
  covers_iff _ _

theorem covers_mk_eq_false_iff (offset length i : Nat) :
    (Window.mk offset length).covers i = false ↔ i < offset ∨ offset + length ≤ i := by
  rw [Bool.eq_false_iff, ne_eq, covers_mk_iff]
  omega

theorem le_offset_of_mem_row {offset : Nat} {lengths : List Nat} {w : Window}
    (h : w ∈ row offset lengths) : offset ≤ w.offset := by
  induction lengths generalizing offset with
  | nil => cases h
  | cons length rest ih =>
    rcases List.mem_cons.mp h with rfl | h
    · exact Nat.le_refl _
    · have hlater := ih h
      omega

theorem pairwise_apart_row (offset : Nat) (lengths : List Nat) :
    (row offset lengths).Pairwise Apart := by
  induction lengths generalizing offset with
  | nil => exact .nil
  | cons length rest ih =>
    refine .cons ?_ (ih (offset + length))
    intro w hw i hi
    have hlater := le_offset_of_mem_row hw
    rw [covers_mk_iff] at hi
    rw [Bool.eq_false_iff, ne_eq, covers_iff]
    omega

/-- A frame of a window in two parts. -/
theorem covers_add (offset length rest i : Nat) :
    (Window.mk offset (length + rest)).covers i =
      ((Window.mk offset length).covers i || (Window.mk (offset + length) rest).covers i) := by
  rw [Bool.eq_iff_iff, Bool.or_eq_true, covers_mk_iff, covers_mk_iff, covers_mk_iff]
  omega

/-- Windows in a row cover what one window over all their frames covers. -/
theorem someCovers_row (offset : Nat) (lengths : List Nat) (i : Nat) :
    someCovers (row offset lengths) i = (Window.mk offset lengths.sum).covers i := by
  induction lengths generalizing offset with
  | nil =>
    have hnone : (Window.mk offset 0).covers i = false := by
      rw [covers_mk_eq_false_iff]
      omega
    exact hnone.symm
  | cons length rest ih =>
    rw [List.sum_cons, covers_add, ← ih (offset + length)]
    rfl

end Window

/-! ### Samples -/

namespace Samples

/-- Silence, but for the frames at which the gate is open; there each sample goes through `f`. -/
def gate (isOpen : Nat → Bool) (f : Float32 → Float32) (src : Samples) : Samples :=
  src.mapIdx fun i x => if isOpen i then f x else 0

theorem getElem?_gate (isOpen : Nat → Bool) (f : Float32 → Float32) (src : Samples) (i : Nat) :
    (src.gate isOpen f)[i]? = src[i]?.map fun x => if isOpen i then f x else 0 :=
  Array.getElem?_mapIdx

theorem gate_closed (f : Float32 → Float32) (src : Samples) :
    src.gate (fun _ => false) f = silence src.size := by
  apply Array.ext_getElem?
  intro i
  rw [getElem?_gate, silence, Array.getElem?_replicate]
  by_cases hi : i < src.size
  · rw [if_pos hi, Array.getElem?_eq_getElem hi]
    rfl
  · rw [if_neg hi, Array.getElem?_eq_none (Nat.le_of_not_lt hi)]
    rfl

theorem gate_open (src : Samples) : src.gate (fun _ => true) id = src := by
  apply Array.ext_getElem?
  intro i
  rw [getElem?_gate]
  exact Option.map_id_apply

/-- Working in a window on what a gate left, from what another gate left, opens the gate in that
window: the one gate was closed there and the other was open. -/
theorem zipWindow_gate {w : Window} {isOpen supplied : Nat → Bool} {f : Float32 → Float32}
    {g : Float32 → Float32 → Float32} (src : Samples)
    (hclosed : ∀ i, w.covers i = true → isOpen i = false)
    (hsupplied : ∀ i, w.covers i = true → supplied i = true) (hg : ∀ x, g 0 x = f x) :
    zipWindow g w (src.gate isOpen f) (src.gate supplied id) =
      src.gate (fun i => isOpen i || w.covers i) f := by
  apply Array.ext_getElem?
  intro i
  rw [zipWindow, Array.getElem?_mapIdx, getElem?_gate, getElem?_gate, getElem?_gate]
  cases hx : src[i]? with
  | none => rfl
  | some x =>
    cases hw : w.covers i with
    | false => simp only [Option.map_some, Bool.or_false, Bool.false_eq_true, if_false]
    | true =>
      simp only [Option.map_some, hclosed i hw, hsupplied i hw, Bool.false_or, Bool.false_eq_true,
        if_true, if_false, id_eq, hg]

end Samples

/-! ### Events -/

namespace EventQueue

/-- The events of the queue that lie in some windows, window by window. -/
def throughout (q : EventQueue) (ws : List Window) : List Event := ws.flatMap q.within

theorem throughout_concat (q : EventQueue) (ws : List Window) (w : Window) :
    q.throughout (ws ++ [w]) = q.throughout ws ++ q.within w := by
  simp [throughout]

theorem throughout_singleton (q : EventQueue) (w : Window) : q.throughout [w] = q.within w :=
  List.append_nil _

theorem covers_of_mem_within {q : EventQueue} {w : Window} {e : Event} (h : e ∈ q.within w) :
    w.covers e.time.toNat = true :=
  (List.mem_filter.mp h).2

/-- Looking for the events of a new window among those of the windows so far and of the new one
finds the events of the new one. -/
theorem filter_throughout_concat (q : EventQueue) {ws : List Window} {w : Window}
    (h : ∀ v ∈ ws, v.Apart w) :
    ((q.throughout (ws ++ [w])).filter fun e => w.covers e.time.toNat) = q.within w := by
  have hold : ((q.throughout ws).filter fun e => w.covers e.time.toNat) = [] := by
    apply List.filter_eq_nil_iff.mpr
    intro e he
    obtain ⟨v, hv, hev⟩ := List.mem_flatMap.mp he
    rw [h v hv _ (covers_of_mem_within hev)]
    exact Bool.false_ne_true
  rw [throughout_concat, List.filter_append, hold, List.nil_append]
  exact List.filter_eq_self.mpr fun e he => covers_of_mem_within he

/-- Taking out what satisfies one condition, then what satisfies another, is a reordering of what
satisfies either, if nothing satisfies both. -/
theorem perm_filter_or {α : Type} {p q : α → Bool} (xs : List α)
    (h : ∀ x ∈ xs, p x = true → q x = false) :
    (xs.filter p ++ xs.filter q).Perm (xs.filter fun x => p x || q x) := by
  induction xs with
  | nil => exact .nil
  | cons x xs ih =>
    have hrest := ih fun y hy => h y (List.mem_cons_of_mem x hy)
    cases hp : p x with
    | true =>
      have hq := h x List.mem_cons_self hp
      simp only [List.filter_cons, hp, hq, Bool.true_or, Bool.false_eq_true, if_true, if_false]
      exact hrest.cons x
    | false =>
      cases hq : q x with
      | true =>
        simp only [List.filter_cons, hp, hq, Bool.or_true, Bool.false_eq_true, if_true, if_false]
        exact List.perm_middle.trans (hrest.cons x)
      | false =>
        simp only [List.filter_cons, hp, hq, Bool.or_false, Bool.false_eq_true, if_false]
        exact hrest

/-- The same in order, if what satisfies the first condition comes first. -/
theorem filter_or_of_pairwise {α : Type} {R : α → α → Prop} {p q : α → Bool} {xs : List α}
    (h : xs.Pairwise R) (hpq : ∀ x ∈ xs, p x = true → q x = false)
    (hfirst : ∀ x y, R x y → q x = true → p y = false) :
    (xs.filter fun x => p x || q x) = xs.filter p ++ xs.filter q := by
  induction h with
  | nil => rfl
  | @cons x xs hx _ ih =>
    have hrest := ih fun y hy => hpq y (List.mem_cons_of_mem x hy)
    cases hp : p x with
    | true =>
      have hq := hpq x List.mem_cons_self hp
      simp only [List.filter_cons, hp, hq, Bool.true_or, Bool.false_eq_true, if_true, if_false,
        hrest, List.cons_append]
    | false =>
      cases hq : q x with
      | true =>
        have hnone : xs.filter p = [] := by
          apply List.filter_eq_nil_iff.mpr
          intro y hy
          rw [hfirst x y (hx y hy) hq]
          exact Bool.false_ne_true
        simp only [List.filter_cons, hp, hq, Bool.or_true, Bool.false_eq_true, if_true, if_false,
          hrest, hnone, List.nil_append]
      | false =>
        simp only [List.filter_cons, hp, hq, Bool.or_false, Bool.false_eq_true, if_false, hrest]

/-- No event is taken twice, and none that lies in a window is left out. -/
theorem perm_throughout (q : EventQueue) {ws : List Window} (h : ws.Pairwise Window.Apart) :
    (q.throughout ws).Perm (q.events.filter fun e => Window.someCovers ws e.time.toNat) := by
  induction h with
  | nil =>
    have hnone : (q.events.filter fun e => Window.someCovers [] e.time.toNat) = [] :=
      List.filter_eq_nil_iff.mpr fun _ _ => Bool.false_ne_true
    rw [hnone]
    exact .nil
  | @cons w ws hw _ ih =>
    have happart : ∀ e ∈ q.events, w.covers e.time.toNat = true →
        Window.someCovers ws e.time.toNat = false := by
      intro e _ he
      apply List.any_eq_false.mpr
      intro v hv
      rw [hw v hv _ he]
      exact Bool.false_ne_true
    exact (ih.append_left (q.within w)).trans (perm_filter_or q.events happart)

theorem length_throughout_le (q : EventQueue) {ws : List Window} (h : ws.Pairwise Window.Apart) :
    (q.throughout ws).length ≤ q.length := by
  rw [(q.perm_throughout h).length_eq]
  exact List.length_filter_le _ _

/-- Windows in a row give the events of the window over all their frames. -/
theorem perm_throughout_row (q : EventQueue) (offset : Nat) (lengths : List Nat) :
    (q.throughout (Window.row offset lengths)).Perm (q.within ⟨offset, lengths.sum⟩) := by
  have hperm := q.perm_throughout (Window.pairwise_apart_row offset lengths)
  simp only [Window.someCovers_row] at hperm
  exact hperm

/-- They give them in the same order if events are in the order of their times. -/
theorem throughout_row_of_sorted {q : EventQueue} (h : q.events.Pairwise fun a b => a.time ≤ b.time)
    (offset : Nat) (lengths : List Nat) :
    q.throughout (Window.row offset lengths) = q.within ⟨offset, lengths.sum⟩ := by
  induction lengths generalizing offset with
  | nil =>
    have hnone : q.within ⟨offset, 0⟩ = [] := by
      apply List.filter_eq_nil_iff.mpr
      intro e _
      rw [Window.covers_mk_iff]
      omega
    exact hnone.symm
  | cons length rest ih =>
    have hsplit : q.within ⟨offset, length + rest.sum⟩ =
        q.within ⟨offset, length⟩ ++ q.within ⟨offset + length, rest.sum⟩ := by
      simp only [within, Window.covers_add]
      apply filter_or_of_pairwise h
      · intro e _ he
        rw [Window.covers_mk_iff] at he
        rw [Window.covers_mk_eq_false_iff]
        omega
      · intro a b hab ha
        have htime : a.time.toNat ≤ b.time.toNat := hab
        rw [Window.covers_mk_iff] at ha
        rw [Window.covers_mk_eq_false_iff]
        omega
    rw [List.sum_cons, hsplit, ← ih]
    rfl

end EventQueue

end MixerRouting
