import MixerRouting.Proofs.Wiring.Change
import MixerRouting.Proofs.Wiring.Edits

/-!
# Wires as a table

The reference for a wiring is a table from pairs of ports to wire states. It
keeps its entries in the order of their entry, and every change is one operation
of it: there are no places, no indices and no second copy of anything, so
nothing can be stale. The lemmas say what each operation of the table does to
the list of wires that it stands for, in the words of the edits of a wiring.
-/
namespace MixerRouting

/-- What may change about a wire. -/
structure WireState where
  gain : Float32
  locked : Bool
  enabled : Bool
  base : Float32
  deriving DecidableEq

namespace Wire

def state (w : Wire) : WireState := ⟨w.gain, w.locked, w.enabled, w.base⟩

def ofEntry (e : (PortId × PortId) × WireState) : Wire :=
  ⟨e.1.1, e.1.2, e.2.gain, e.2.locked, e.2.enabled, e.2.base⟩

@[simp] theorem ends_ofEntry (e : (PortId × PortId) × WireState) : (ofEntry e).ends = e.1 := rfl

@[simp] theorem ofEntry_ends_state (w : Wire) : ofEntry (w.ends, w.state) = w := rfl

end Wire

namespace Table
variable {κ ν : Type} [DecidableEq κ]

/-- Changes the value at a key, if there is one. -/
def modify (t : Table κ ν) (k : κ) (f : ν → ν) : Table κ ν :=
  ⟨t.entries.map fun e => if e.1 = k then (k, f e.2) else e, by
    have hk : (t.entries.map fun e => if e.1 = k then (k, f e.2) else e).map Prod.fst = t.keys := by
      rw [List.map_map]
      apply List.map_congr_left
      intro e _
      by_cases he : e.1 = k <;> simp [he]
    rw [hk]
    exact t.distinct⟩

/-- Removes the entries whose keys are doomed; answers how many go. -/
def eraseWhere (t : Table κ ν) (doomed : κ → Bool) : Nat × Table κ ν :=
  (t.entries.countP fun e => doomed e.1,
    ⟨t.entries.filter fun e => !doomed e.1,
      t.distinct.sublist (List.filter_sublist.map Prod.fst)⟩)

/-- Gives the entry of `old` another key and value in its place; another entry of the new key
goes. -/
def rename (t : Table κ ν) (old new : κ) (v : ν) : Table κ ν :=
  ⟨(t.entries.filter fun e => e.1 ≠ new ∨ e.1 = old).map fun e =>
      if e.1 = old then (new, v) else e, by
    have hd : ((t.entries.filter fun e => e.1 ≠ new ∨ e.1 = old).map Prod.fst).Nodup :=
      t.distinct.sublist (List.filter_sublist.map Prod.fst)
    rw [List.map_map]
    refine List.Nodup.map_on ?_ hd.of_map
    intro a ha b hb h
    have hab := List.inj_on_of_nodup_map hd ha hb
    have hka : a.1 ≠ new ∨ a.1 = old := by simpa using (List.mem_filter.mp ha).2
    have hkb : b.1 ≠ new ∨ b.1 = old := by simpa using (List.mem_filter.mp hb).2
    by_cases h₁ : a.1 = old <;> by_cases h₂ : b.1 = old
    · exact hab (h₁.trans h₂.symm)
    · simp only [Function.comp_apply, h₁, h₂, if_true, if_false] at h
      exact absurd h.symm (hkb.resolve_right h₂)
    · simp only [Function.comp_apply, h₁, h₂, if_true, if_false] at h
      exact absurd h (hka.resolve_right h₁)
    · simp only [Function.comp_apply, h₁, h₂, if_false] at h
      exact hab h⟩

theorem contains_iff (t : Table κ ν) (k : κ) : t.contains k = true ↔ k ∈ t.keys := by
  simp [contains, get?, keys, List.find?_isSome]

theorem entries_insert_of_mem {t : Table κ ν} {k : κ} (h : k ∈ t.keys) (v : ν) :
    (t.insert k v).entries = t.entries.map fun e => if e.1 = k then (k, v) else e := by
  unfold insert
  split
  · rfl
  · next hn => exact absurd h hn

theorem entries_insert_of_not_mem {t : Table κ ν} {k : κ} (h : k ∉ t.keys) (v : ν) :
    (t.insert k v).entries = t.entries ++ [(k, v)] := by
  unfold insert
  split
  · next hm => exact absurd hm h
  · rfl

end Table

/-- Wires by the ports that they join, in the order in which they were made. -/
abbrev WireTable := Table (PortId × PortId) WireState

namespace WireTable

def wires (t : WireTable) : List Wire := t.entries.map Wire.ofEntry

/-- One change, said of the table. -/
def apply (t : WireTable) : Change WireTable → Answer × WireTable
  | .connect src dest gain locked enabled =>
    let base := ((t.get? (src, dest)).map WireState.base).getD 0
    let state : WireState := ⟨gain, locked, enabled, base⟩
    (.wire (.ofEntry ((src, dest), state)), t.insert (src, dest) state)
  | .disconnect src dest => (.found (t.contains (src, dest)), t.erase (src, dest))
  | .disconnectPort p => (t.eraseWhere fun e => e.1 = p || e.2 = p).map .removed id
  | .disconnectPorts ports =>
    (t.eraseWhere fun e => ports.any fun p => e.1 = p || e.2 = p).map .removed id
  | .replace before after =>
    if t.contains before.ends then (.found true, t.rename before.ends after.ends after.state)
    else (.found false, t)
  | .reset other => (.done, other.getD ∅)
  | .restore records => (.done, records.foldl (fun t w => t.insert w.ends w.state) ∅)
  | .reindex => (.done, t)
  | .setBase src dest value =>
    (.found (t.contains (src, dest)),
      t.modify (src, dest) fun state => { state with base := value })

/-- The wiring that has the entries as its wires. -/
def toWiring (t : WireTable) : Wiring := .ofList t.wires

@[simp] theorem wires_empty : (∅ : WireTable).wires = [] := rfl

@[simp] theorem map_ends_wires (t : WireTable) : t.wires.map Wire.ends = t.keys := by
  simp only [wires, List.map_map]
  rfl

theorem unique_wires (t : WireTable) : Wiring.Unique t.wires := by
  rw [Wiring.Unique, map_ends_wires]
  exact t.distinct

theorem any_joins_wires (t : WireTable) (src dest : PortId) :
    (t.wires.any fun w => w.joins src dest) = t.contains (src, dest) := by
  rw [Bool.eq_iff_iff, Wiring.any_joins_iff, map_ends_wires, Table.contains_iff]

theorem find?_joins_wires (t : WireTable) (src dest : PortId) :
    t.wires.find? (fun w => w.joins src dest) =
      (t.get? (src, dest)).map fun state => Wire.ofEntry ((src, dest), state) := by
  have hp : (fun w : Wire => w.joins src dest) ∘ Wire.ofEntry =
      fun e => decide (e.1 = (src, dest)) := by
    funext e
    rw [Bool.eq_iff_iff, Function.comp_apply, Wire.joins_iff, Wire.ends_ofEntry, decide_eq_true_iff]
  rw [wires, List.find?_map, hp, Table.get?, Option.map_map]
  apply Option.map_congr
  intro e he
  have hk : e.1 = (src, dest) := by simpa using List.find?_some he
  rw [Function.comp_apply, ← hk]

theorem wires_insert (t : WireTable) (k : PortId × PortId) (state : WireState) :
    wires (t.insert k state) = Wiring.enter t.wires (.ofEntry (k, state)) := by
  by_cases hk : k ∈ t.keys
  · rw [Wiring.enter_of_mem t.unique_wires (by simpa using hk), wires, wires,
      Table.entries_insert_of_mem hk, List.map_map, List.map_map]
    apply List.map_congr_left
    intro e _
    exact apply_ite Wire.ofEntry _ _ _
  · rw [Wiring.enter_of_not_mem (by simpa using hk), wires, wires,
      Table.entries_insert_of_not_mem hk, List.map_append, List.map_singleton]

theorem wires_modify_base (t : WireTable) (k : PortId × PortId) (value : Float32) :
    wires (t.modify k fun state => { state with base := value }) =
      t.wires.map fun w => if w.ends = k then { w with base := value } else w := by
  simp only [wires, Table.modify, List.map_map]
  apply List.map_congr_left
  rintro e -
  by_cases he : e.1 = k
  · simp [Wire.ofEntry, Wire.ends, he]
  · simp [he]

theorem wires_erase (t : WireTable) (k : PortId × PortId) :
    wires (t.erase k) = t.wires.filter fun w => w.ends ≠ k := by
  simp only [wires, Table.erase, List.filter_map]
  rfl

theorem wires_eraseWhere (t : WireTable) (doomed : PortId × PortId → Bool) :
    (t.eraseWhere doomed).map id wires =
      (t.wires.countP fun w => doomed w.ends, t.wires.filter fun w => !doomed w.ends) := by
  simp only [wires, Table.eraseWhere, List.filter_map, List.countP_map, Prod.map]
  rfl

theorem wires_rename (t : WireTable) (old : PortId × PortId) (after : Wire) :
    wires (t.rename old after.ends after.state) = Wiring.exchange t.wires old after := by
  simp only [wires, Table.rename, Wiring.exchange, List.filter_map, List.map_map]
  apply List.map_congr_left
  intro e _
  exact apply_ite Wire.ofEntry _ _ _

theorem wires_restore (records : List Wire) (t : WireTable) :
    wires (records.foldl (fun t w => t.insert w.ends w.state) t) =
      records.foldl Wiring.enter t.wires := by
  induction records generalizing t with
  | nil => rfl
  | cons w rest ih =>
    rw [List.foldl_cons, ih, wires_insert, Wire.ofEntry_ends_state, List.foldl_cons]

end WireTable

end MixerRouting
