/-!
# Finite tables

A table keeps one value per key, in the order in which the keys were first
entered. It is a list of pairs with distinct keys; `get?` is the view through
which everything else is said.
-/
namespace MixerRouting

structure Table (κ ν : Type) where
  entries : List (κ × ν)
  distinct : (entries.map Prod.fst).Nodup

namespace Table

variable {κ ν : Type} [DecidableEq κ]

def empty : Table κ ν := ⟨[], List.nodup_nil⟩

instance : EmptyCollection (Table κ ν) := ⟨empty⟩

instance : Inhabited (Table κ ν) := ⟨empty⟩

def keys (t : Table κ ν) : List κ := t.entries.map Prod.fst

def size (t : Table κ ν) : Nat := t.entries.length

def get? (t : Table κ ν) (k : κ) : Option ν :=
  (t.entries.find? fun entry => entry.1 = k).map Prod.snd

def contains (t : Table κ ν) (k : κ) : Bool := (t.get? k).isSome

/-- Enters a value; a key that is present keeps its place. -/
def insert (t : Table κ ν) (k : κ) (v : ν) : Table κ ν :=
  if h : k ∈ t.entries.map Prod.fst then
    ⟨t.entries.map fun entry => if entry.1 = k then (k, v) else entry, by
      have same : (t.entries.map fun entry => if entry.1 = k then (k, v) else entry).map Prod.fst
          = t.entries.map Prod.fst := by
        rw [List.map_map]
        apply List.map_congr_left
        intro entry _
        by_cases at_key : entry.1 = k <;> simp [at_key]
      rw [same]
      exact t.distinct⟩
  else
    ⟨t.entries ++ [(k, v)], by
      rw [List.map_append, List.nodup_append]
      refine ⟨t.distinct, by simp, ?_⟩
      intro a ha b hb
      simp only [List.map_cons, List.map_nil, List.mem_singleton] at hb
      rintro rfl
      exact h (hb ▸ ha)⟩

def erase (t : Table κ ν) (k : κ) : Table κ ν :=
  ⟨t.entries.filter fun entry => entry.1 ≠ k,
    t.distinct.sublist (List.filter_sublist.map Prod.fst)⟩

/-- Replaces the value at a key by a function of it. -/
def update (t : Table κ ν) (k : κ) (f : Option ν → ν) : Table κ ν := t.insert k (f (t.get? k))

@[simp] theorem get?_empty (k : κ) : (∅ : Table κ ν).get? k = none := rfl

private theorem find?_map_replace (entries : List (κ × ν)) (k : κ) (v : ν) (q : κ) :
    ((entries.map fun entry => if entry.1 = k then (k, v) else entry).find?
        fun entry => entry.1 = q).map Prod.snd =
      if q = k then (entries.find? fun entry => entry.1 = q).map fun _ => v
      else (entries.find? fun entry => entry.1 = q).map Prod.snd := by
  induction entries with
  | nil => simp
  | cons entry rest ih =>
    obtain ⟨a, b⟩ := entry
    by_cases hq : q = k
    · subst hq
      by_cases ha : a = q <;> simp_all
    · have hkq : ¬ k = q := fun h => hq h.symm
      by_cases ha : a = k
      · subst ha
        simp_all
      · by_cases haq : a = q <;> simp_all

theorem get?_insert (t : Table κ ν) (k : κ) (v : ν) (q : κ) :
    (t.insert k v).get? q = if q = k then some v else t.get? q := by
  unfold insert
  split
  · next h =>
    unfold get?
    rw [find?_map_replace]
    by_cases hq : q = k
    · subst hq
      obtain ⟨entry, mem, key⟩ := List.mem_map.mp h
      have found : (t.entries.find? fun entry => entry.1 = q).isSome := by
        rw [List.find?_isSome]
        exact ⟨entry, mem, by simp [key]⟩
      obtain ⟨w, hw⟩ := Option.isSome_iff_exists.mp found
      simp [hw]
    · simp [hq]
  · next h =>
    unfold get?
    rw [List.find?_append]
    by_cases hq : q = k
    · subst hq
      have absent : t.entries.find? (fun entry => entry.1 = q) = none := by
        rw [List.find?_eq_none]
        intro entry mem at_key
        exact h (List.mem_map.mpr ⟨entry, mem, by simpa using at_key⟩)
      simp [absent]
    · have hkq : ¬ k = q := fun h => hq h.symm
      simp [hq, hkq]

theorem get?_erase (t : Table κ ν) (k q : κ) :
    (t.erase k).get? q = if q = k then none else t.get? q := by
  unfold erase get?
  by_cases hq : q = k
  · subst hq
    simp [List.find?_filter]
  · simp only [hq, if_false, List.find?_filter]
    have same : (fun entry : κ × ν => !decide (entry.1 = k) && decide (entry.1 = q)) =
        fun entry => decide (entry.1 = q) := by
      funext entry
      by_cases at_q : entry.1 = q
      · simp [at_q, hq]
      · simp [at_q]
    simp [same]

end Table

end MixerRouting
