import MixerRouting.Proofs.Keyed
import MixerRouting.Proofs.Routing.Resolution
import MixerRouting.Proofs.Wiring.Lookup
import MixerRouting.Studio.Basic

/-!
# What a publication leaves on the board

A publication goes through the registered ports in some order and puts a
snapshot into the slot of each. As long as no slot is registered twice the
order does not show: a slot has the snapshot of the port that it is lent to,
and a slot that is lent to none keeps what it had. The snapshots themselves are
told along the list of wires, without the indices of the wiring.

A recalculation publishes if all ends of wires resolve. Otherwise it changes
nothing and names the first end that does not.
-/
namespace MixerRouting

/-! ### Posting -/

namespace Board

theorem read_post_of_ne (b : Board) {slot other : RouteSlot} (routes : Routes) (h : other ≠ slot) :
    (b.post slot routes).read other = b.read other := by
  have hi : slot.index ≠ other.index := fun he => h (congrArg RouteSlot.mk he.symm)
  rw [post, read, read, List.getElem?_set_ne hi]

theorem length_fresh (b : Board) : b.fresh.2.snapshots.length = b.snapshots.length + 1 :=
  List.length_append

/-- Posting one snapshot for each entry leaves in a slot the snapshot of the identity that the slot
is lent to, as long as there is only one. -/
theorem read_foldl_post {entries : List (PortId × RegisteredPort)} {routesOf : PortId → Routes}
    {p : PortId} {slot : RouteSlot} {b : Board} (hb : slot.index < b.snapshots.length)
    (hone : ∀ e ∈ entries, e.2.slot = slot → e.1 = p)
    (hp : b.read slot = routesOf p ∨ ∃ e ∈ entries, e.2.slot = slot) :
    (entries.foldl (fun b e => b.post e.2.slot (routesOf e.1)) b).read slot = routesOf p := by
  induction entries generalizing b with
  | nil =>
    rcases hp with hp | ⟨e, he, -⟩
    · exact hp
    · exact absurd he List.not_mem_nil
  | cons e rest ih =>
    have hlen : slot.index < (b.post e.2.slot (routesOf e.1)).snapshots.length := by
      rw [post, List.length_set]
      exact hb
    refine ih hlen (fun e he => hone e (List.mem_cons_of_mem _ he)) ?_
    -- Either the slot has its snapshot now, or it is still to come as before.
    by_cases hs : e.2.slot = slot
    · left
      rw [read_post _ _ _ _ (hs ▸ hb), if_pos hs.symm, hone e List.mem_cons_self hs]
    · rw [read_post_of_ne b _ (Ne.symm hs)]
      refine hp.imp id ?_
      rintro ⟨e', he', hs'⟩
      rcases List.mem_cons.mp he' with rfl | he'
      · exact absurd hs' hs
      · exact ⟨e', he', hs'⟩

theorem read_foldl_post_of_unlent {entries : List (PortId × RegisteredPort)}
    {routesOf : PortId → Routes} {slot : RouteSlot} (b : Board)
    (h : ∀ e ∈ entries, e.2.slot ≠ slot) :
    (entries.foldl (fun b e => b.post e.2.slot (routesOf e.1)) b).read slot = b.read slot := by
  induction entries generalizing b with
  | nil => rfl
  | cons e rest ih =>
    rw [List.foldl_cons, ih _ fun e he => h e (List.mem_cons_of_mem _ he)]
    exact read_post_of_ne b _ (Ne.symm (h e List.mem_cons_self))

theorem length_foldl_post (entries : List (PortId × RegisteredPort)) (routesOf : PortId → Routes)
    (b : Board) :
    (entries.foldl (fun b e => b.post e.2.slot (routesOf e.1)) b).snapshots.length =
      b.snapshots.length := by
  induction entries generalizing b with
  | nil => rfl
  | cons e rest ih => exact (ih _).trans List.length_set

end Board

/-! ### Slots and their holders -/

namespace Registry

/-- No slot is registered under two identities. -/
def SlotsApart (r : Registry) : Prop := (r.ports.entries.map fun e => e.2.slot).Nodup

instance (r : Registry) : Decidable r.SlotsApart := inferInstanceAs (Decidable (List.Nodup _))

/-- The slots of all registered ports were handed out by the board. -/
def OnBoard (r : Registry) (b : Board) : Prop :=
  ∀ e ∈ r.ports.entries, e.2.slot.index < b.snapshots.length

instance (r : Registry) (b : Board) : Decidable (r.OnBoard b) :=
  inferInstanceAs (Decidable (∀ e ∈ r.ports.entries, _))

/-- The identity that a slot is registered under. -/
def holder? (r : Registry) (slot : RouteSlot) : Option PortId :=
  (r.ports.entries.find? fun e => e.2.slot = slot).map Prod.fst

theorem mem_entries_iff (r : Registry) (p : PortId) (port : RegisteredPort) :
    (p, port) ∈ r.ports.entries ↔ r.ports.get? p = some port := by
  rw [Table.get?, Option.map_eq_some_iff]
  constructor
  · intro h
    exact ⟨_, (Keyed.find?_eq_some_iff r.ports.distinct p _).mpr ⟨h, rfl⟩, rfl⟩
  · rintro ⟨e, he, rfl⟩
    obtain ⟨hm, rfl⟩ := (Keyed.find?_eq_some_iff r.ports.distinct p e).mp he
    exact hm

theorem holder?_eq_some_iff {r : Registry} (h : r.SlotsApart) (slot : RouteSlot) (p : PortId) :
    r.holder? slot = some p ↔ ∃ port, r.ports.get? p = some port ∧ port.slot = slot := by
  rw [holder?, Option.map_eq_some_iff]
  constructor
  · rintro ⟨⟨q, port⟩, he, rfl⟩
    obtain ⟨hm, hs⟩ := (Keyed.find?_eq_some_iff h slot _).mp he
    exact ⟨port, (r.mem_entries_iff q port).mp hm, hs⟩
  · rintro ⟨port, hp, hs⟩
    have hentry := (r.mem_entries_iff p port).mpr hp
    exact ⟨(p, port), (Keyed.find?_eq_some_iff h slot _).mpr ⟨hentry, hs⟩, rfl⟩

theorem holder?_eq_none_of_free {r : Registry} (h : r.SlotsApart) {slot : RouteSlot}
    (hfree : ∀ p port, r.ports.get? p = some port → port.slot ≠ slot) :
    r.holder? slot = none := by
  rw [Option.eq_none_iff_forall_ne_some]
  intro p hp
  obtain ⟨port, hport, hs⟩ := (holder?_eq_some_iff h slot p).mp hp
  exact hfree p port hport hs

/-- The routes of a port along the enabled wires of a list, in its order. -/
def routesAlong (r : Registry) (wires : List Wire) (p : PortId) : Routes where
  sources := (wires.filter fun w => w.enabled && w.dest = p).map fun w =>
    ⟨w.src, w.gain, r.hostOf w.src⟩
  destinations := (wires.filter fun w => w.enabled && w.src = p).map fun w =>
    ⟨w.dest, w.gain, r.hostOf w.dest⟩

theorem mem_routesAlong {r : Registry} {wires : List Wire} {p : PortId} {route : Route}
    (h : route ∈ (r.routesAlong wires p).sources ++ (r.routesAlong wires p).destinations) :
    ∃ w ∈ wires, (route.peer = w.src ∨ route.peer = w.dest) ∧
      route.plugin = r.hostOf route.peer := by
  rcases List.mem_append.mp h with h | h
  · obtain ⟨w, hw, rfl⟩ := List.mem_map.mp h
    exact ⟨w, (List.mem_filter.mp hw).1, .inl rfl, rfl⟩
  · obtain ⟨w, hw, rfl⟩ := List.mem_map.mp h
    exact ⟨w, (List.mem_filter.mp hw).1, .inr rfl, rfl⟩

/-- Both ends of an enabled wire show it to each other, with its gain. -/
theorem gains_routesAlong (r : Registry) (wires : List Wire) (p q : PortId) :
    ((r.routesAlong wires p).destinations.filter fun route => route.peer = q).map Route.gain =
      ((r.routesAlong wires q).sources.filter fun route => route.peer = p).map Route.gain := by
  simp only [routesAlong, List.filter_map, List.map_map, List.filter_filter]
  have hsame : ∀ w : Wire, (decide (w.dest = q) && (w.enabled && decide (w.src = p))) =
      (decide (w.src = p) && (w.enabled && decide (w.dest = q))) := by
    intro w
    rw [Bool.and_left_comm, Bool.and_comm (decide (w.dest = q)), Bool.and_left_comm]
  exact congrArg _ (List.filter_congr fun w _ => hsame w)

end Registry

/-! ### Publishing -/

namespace Wiring

theorem Reachable.routesOf {g : Wiring} (h : g.Reachable) (r : Registry) (p : PortId) :
    g.routesOf r p = r.routesAlong g.wires p := by
  obtain ⟨hg, -⟩ := h.eq_ofList
  rw [hg]
  simp only [Wiring.routesOf, neighbours_ofList, List.filter_filter]
  rfl

/-- The snapshot that is published for a port: no other identity may have its slot. -/
theorem read_published {g : Wiring} {registry : Registry} {b : Board} {p : PortId}
    {port : RegisteredPort} (hp : registry.ports.get? p = some port)
    (hb : port.slot.index < b.snapshots.length)
    (hone : ∀ e ∈ registry.ports.entries, e.2.slot = port.slot → e.1 = p) :
    (g.published registry b).read port.slot = g.routesOf registry p :=
  Board.read_foldl_post hb hone (.inr ⟨_, (registry.mem_entries_iff p port).mpr hp, rfl⟩)

/-- A publication gives each slot the routes of its holder, and nothing to a slot without one. -/
theorem Reachable.read_published {g : Wiring} (hg : g.Reachable) {r : Registry} {b : Board}
    (hb : r.OnBoard b) (ha : r.SlotsApart) (slot : RouteSlot) :
    (g.published r b).read slot = match r.holder? slot with
      | some p => r.routesAlong g.wires p
      | none => b.read slot := by
  cases hh : r.holder? slot with
  | some p =>
    obtain ⟨port, hp, rfl⟩ := (Registry.holder?_eq_some_iff ha slot p).mp hh
    have hm := (r.mem_entries_iff p port).mpr hp
    have hone : ∀ e ∈ r.ports.entries, e.2.slot = port.slot → e.1 = p := fun e he hs =>
      congrArg Prod.fst (List.inj_on_of_nodup_map ha he hm hs)
    exact (Wiring.read_published hp (hb _ hm) hone).trans (hg.routesOf r p)
  | none =>
    apply Board.read_foldl_post_of_unlent
    intro e he hs
    have hf := List.find?_eq_none.mp (Option.map_eq_none_iff.mp hh) e he
    exact hf (decide_eq_true hs)

end Wiring

end MixerRouting
