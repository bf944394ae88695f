import MixerRouting.Proofs.Wiring.Lookup

/-!
# The wires that leave a port

Sends look at a wiring port by port: which wires leave this one. They edit it
in series, first removing wires and then joining pairs of ports, and a series
on a desk is either refused before it starts or done in full.
-/
namespace MixerRouting

namespace Wiring

/-- The wires that leave a port, by a walk along all wires. -/
def outgoing (g : Wiring) (p : PortId) : List Wire := g.wires.filter fun w => w.src = p

theorem mem_outgoing_iff {g : Wiring} {p : PortId} {w : Wire} :
    w ∈ g.outgoing p ↔ w ∈ g.wires ∧ w.src = p := by
  rw [outgoing, List.mem_filter, decide_eq_true_iff]

/-- The wires of a port are not among those that leave other ports. -/
theorem filter_src_filter {ports : List PortId} {p : PortId} (hp : p ∉ ports) (wires : List Wire) :
    ((wires.filter fun w => w.src ∉ ports).filter fun w => w.src = p) =
      wires.filter fun w => w.src = p := by
  rw [List.filter_filter]
  apply List.filter_congr
  intro w _
  rw [← Bool.decide_and, decide_eq_decide, and_iff_left_iff_imp]
  rintro rfl
  exact hp

theorem Reachable.neighbours_destination {g : Wiring} (h : g.Reachable) (p : PortId) :
    g.neighbours p .destination = g.outgoing p := by
  obtain ⟨hg, -⟩ := h.eq_ofList
  rw [hg]
  exact neighbours_ofList g.wires p .destination

theorem Reachable.count_destination {g : Wiring} (h : g.Reachable) (p : PortId) :
    g.count p .destination = (g.outgoing p).length := by
  obtain ⟨hg, -⟩ := h.eq_ofList
  rw [hg]
  exact count_ofList g.wires p .destination

theorem outgoing_ofList (wires : List Wire) (p : PortId) :
    (ofList wires).outgoing p = wires.filter fun w => w.src = p := rfl

theorem outgoing_enter_of_ne {wires : List Wire} (hd : Unique wires) {w : Wire} {p : PortId}
    (hp : w.src ≠ p) : (ofList (enter wires w)).outgoing p = (ofList wires).outgoing p := by
  rw [outgoing_ofList, outgoing_ofList]
  by_cases hm : w.ends ∈ wires.map Wire.ends
  · have hsrc : (fun v : Wire => decide (v.src = p)) ∘ (fun v => if v.ends = w.ends then w else v) =
        fun v => decide (v.src = p) := by
      funext v
      by_cases hv : v.ends = w.ends
      · have hs : v.src = w.src := Wire.src_of_ends hv
        simp [hv, hs]
      · simp [hv]
    have hkeep : ∀ v ∈ wires.filter (fun v => v.src = p),
        (if v.ends = w.ends then w else v) = id v := by
      intro v hv
      have hs : v.src = p := by simpa using (List.mem_filter.mp hv).2
      exact if_neg fun he => hp ((Wire.src_of_ends he).symm.trans hs)
    rw [enter_of_mem hd hm, List.filter_map, hsrc, List.map_congr_left hkeep, List.map_id]
  · rw [enter_of_not_mem hm, List.filter_append, List.filter_singleton, decide_eq_false hp]
    exact List.append_nil _

section
variable {g : Wiring} (h : g.Reachable) (src dest : PortId)
include h

theorem Reachable.outgoing_connect_of_ne (gain : Float32) (locked enabled : Bool) {p : PortId}
    (hp : src ≠ p) : (g.connect src dest gain locked enabled).2.outgoing p = g.outgoing p := by
  obtain ⟨hg, hd⟩ := h.eq_ofList
  rw [hg, connect_ofList hd]
  exact outgoing_enter_of_ne hd hp

theorem Reachable.wires_disconnect :
    (g.disconnect src dest).2.wires = g.wires.filter fun w => w.ends ≠ (src, dest) := by
  obtain ⟨hg, hd⟩ := h.eq_ofList
  rw [hg, disconnect_ofList hd]
  rfl

theorem Reachable.connect (gain : Float32) (locked enabled : Bool) :
    (g.connect src dest gain locked enabled).2.Reachable :=
  .change (.connect src dest gain locked enabled) h nofun

theorem Reachable.disconnect : (g.disconnect src dest).2.Reachable :=
  .change (.disconnect src dest) h nofun

end

/-! ### Series of edits -/

/-- The wiring after wires were removed one after the other. -/
def disconnectEach (g : Wiring) (gone : List Wire) : Wiring :=
  gone.foldl (fun g w => (g.disconnect w.src w.dest).2) g

/-- The wiring after pairs of ports were joined one after the other. -/
def connectLocked (g : Wiring) (pairs : List (PortId × PortId)) : Wiring :=
  pairs.foldl (fun g pair => (g.connect pair.1 pair.2 1 true true).2) g

/-- The wire that joins a pair of ports in a series. -/
def lockedWire (pair : PortId × PortId) : Wire := ⟨pair.1, pair.2, 1, true, true, 0⟩

theorem Reachable.disconnectEach {g : Wiring} (h : g.Reachable) (gone : List Wire) :
    (g.disconnectEach gone).Reachable := by
  induction gone generalizing g with
  | nil => exact h
  | cons w rest ih => exact ih (h.disconnect w.src w.dest)

theorem Reachable.connectLocked {g : Wiring} (h : g.Reachable) (pairs : List (PortId × PortId)) :
    (g.connectLocked pairs).Reachable := by
  induction pairs generalizing g with
  | nil => exact h
  | cons pair rest ih => exact ih (h.connect pair.1 pair.2 1 true true)

theorem Reachable.wires_disconnectEach {g : Wiring} (h : g.Reachable) (gone : List Wire) :
    (g.disconnectEach gone).wires = g.wires.filter fun w => w.ends ∉ gone.map Wire.ends := by
  induction gone generalizing g with
  | nil => simp [Wiring.disconnectEach]
  | cons v rest ih =>
    rw [Wiring.disconnectEach, List.foldl_cons, ← Wiring.disconnectEach,
      ih (h.disconnect v.src v.dest), h.wires_disconnect, List.filter_filter]
    apply List.filter_congr
    intro w _
    rw [List.map_cons, ← Bool.decide_and, decide_eq_decide, List.mem_cons, not_or, and_comm]
    rfl

/-- Joining pairs one after the other changes nothing at other sources. -/
theorem Reachable.outgoing_connectLocked {g : Wiring} (h : g.Reachable)
    {pairs : List (PortId × PortId)} {p : PortId} (hp : p ∉ pairs.map Prod.fst) :
    (g.connectLocked pairs).outgoing p = g.outgoing p := by
  induction pairs generalizing g with
  | nil => rfl
  | cons pair rest ih =>
    rw [List.map_cons, List.mem_cons, not_or] at hp
    exact (ih (h.connect pair.1 pair.2 1 true true) hp.2).trans
      (h.outgoing_connect_of_ne pair.1 pair.2 1 true true (Ne.symm hp.1))

end Wiring

namespace Desk

/-- A series of edits of one kind is refused as a whole while rendering, unless it is empty. -/
theorem foldlM_edit {α β : Type} (d : Desk) (change : TopologyChange)
    (f : α → Wiring → β × Wiring) (xs : List α) :
    (xs.foldlM (fun d x => do
        let (_, d) ← d.edit change (f x)
        return d) d) =
      if d.rendering && !xs.isEmpty then .error (.whileRendering change)
      else .ok { d with wiring := xs.foldl (fun g x => (f x g).2) d.wiring } := by
  induction xs generalizing d with
  | nil =>
    rw [List.isEmpty_nil, Bool.not_true, Bool.and_false]
    rfl
  | cons x rest ih =>
    rw [List.foldlM_cons]
    cases hr : d.rendering with
    | true =>
      unfold edit guardControl
      rw [hr]
      rfl
    | false =>
      have hrest := ih { d with wiring := (f x d.wiring).2 }
      rw [edit_of_control hr]
      simp only [hr, Bool.false_and] at hrest ⊢
      exact hrest

theorem disconnectEach_eq (d : Desk) (gone : List Wire) :
    d.disconnectEach gone =
      if d.rendering && !gone.isEmpty then .error (.whileRendering .disconnect)
      else .ok { d with wiring := d.wiring.disconnectEach gone } := by
  have h := d.foldlM_edit .disconnect (fun (w : Wire) g => g.disconnect w.src w.dest) gone
  unfold disconnectEach Wiring.disconnectEach disconnect
  exact h

theorem connectLocked_eq (d : Desk) (pairs : List (PortId × PortId)) :
    d.connectLocked pairs =
      if d.rendering && !pairs.isEmpty then .error (.whileRendering .connect)
      else .ok { d with wiring := d.wiring.connectLocked pairs } := by
  have h := d.foldlM_edit .connect (fun pair g => g.connect pair.1 pair.2 1 true true) pairs
  unfold connectLocked Wiring.connectLocked connect
  exact h

theorem connectLocked_of_control {d : Desk} (hc : d.rendering = false)
    (pairs : List (PortId × PortId)) :
    d.connectLocked pairs = .ok { d with wiring := d.wiring.connectLocked pairs } := by
  rw [connectLocked_eq, hc]
  rfl

end Desk

end MixerRouting
