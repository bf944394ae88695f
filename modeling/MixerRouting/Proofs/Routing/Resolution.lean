import MixerRouting.Routing.Desk

/-!
# Which ports resolve

A port resolves if it is registered and, when a plugin owns it, that plugin is
registered too. What is wrong with a port otherwise is one question here, and
checking many ports one after the other is a search for the first one with
which something is wrong. The check of a whole wiring is such a search over the
ends of its wires.
-/
namespace MixerRouting

namespace Registry

/-- Why a port does not resolve. A missing port counts before a missing plugin. -/
def flaw? (r : Registry) (p : PortId) : Option LookupError :=
  match r.ports.get? p with
  | none => some (.missingPort p)
  | some _ =>
    match p.owner.plugin? with
    | none => none
    | some id =>
      match r.plugin? id with
      | none => some (.missingPlugin id)
      | some _ => none

theorem endpoint_eq (r : Registry) (p : PortId) :
    r.endpoint p = match r.flaw? p with
      | none => r.port p
      | some e => .error e := by
  unfold endpoint flaw? port
  cases r.ports.get? p with
  | none => rfl
  | some port =>
    cases p.owner.plugin? with
    | none => rfl
    | some id =>
      unfold plugin
      cases hplugin : r.plugin? id with
      | none => simp only [hplugin, bind, Except.bind]
      | some plugin => simp only [hplugin, bind, Except.bind, pure, Except.pure]

theorem registered_of_no_flaw {r : Registry} {p : PortId} (h : r.flaw? p = none) :
    ∃ port, r.ports.get? p = some port := by
  unfold flaw? at h
  split at h
  · cases h
  · next port hp => exact ⟨port, hp⟩

/-- A plugin's port without flaw has a plugin that is registered under a handle. -/
theorem plugin_of_no_flaw {r : Registry} {p : PortId} (h : r.flaw? p = none) {id : OwnerId}
    (hid : p.owner.plugin? = some id) :
    ∃ handle plugin, r.plugins.get? id = some handle ∧ r.descriptor? handle = some plugin := by
  unfold flaw? at h
  split at h
  · cases h
  · simp only [hid] at h
    split at h
    · cases h
    · next plugin hplugin =>
      obtain ⟨handle, hh, hd⟩ := Option.bind_eq_some_iff.mp hplugin
      exact ⟨handle, plugin, hh, hd⟩

theorem endpoint_of_no_flaw {r : Registry} {p : PortId} (h : r.flaw? p = none) :
    ∃ port, r.endpoint p = .ok port := by
  obtain ⟨port, hp⟩ := registered_of_no_flaw h
  refine ⟨port, ?_⟩
  rw [endpoint_eq, h]
  simp only [Registry.port, hp]

/-- Checking both ends of one thing after the other finds the first end with a flaw. -/
theorem forM_endpoint {α : Type} (r : Registry) (xs : List α) (src dest : α → PortId) :
    (xs.forM fun x => do
        let _ ← r.endpoint (src x)
        let _ ← r.endpoint (dest x)) =
      match (xs.flatMap fun x => [src x, dest x]).findSome? r.flaw? with
      | none => .ok ()
      | some e => .error e := by
  induction xs with
  | nil => rfl
  | cons x xs ih =>
    rw [List.forM, ih, List.flatMap_cons, List.cons_append, List.cons_append, List.nil_append,
      List.findSome?_cons, List.findSome?_cons]
    cases hsrc : r.flaw? (src x) with
    | some e =>
      rw [endpoint_eq, hsrc]
      rfl
    | none =>
      obtain ⟨port, hport⟩ := endpoint_of_no_flaw hsrc
      rw [hport]
      cases hdest : r.flaw? (dest x) with
      | some e =>
        rw [endpoint_eq, hdest]
        rfl
      | none =>
        obtain ⟨port', hport'⟩ := endpoint_of_no_flaw hdest
        rw [hport']
        rfl

end Registry

namespace Wiring

/-- The ends of all wires in the order of the list, the source of a wire before its destination. -/
def endpoints (g : Wiring) : List PortId := g.wires.flatMap fun w => [w.src, w.dest]

theorem src_mem_endpoints {g : Wiring} {w : Wire} (h : w ∈ g.wires) : w.src ∈ g.endpoints :=
  List.mem_flatMap_of_mem h List.mem_cons_self

theorem dest_mem_endpoints {g : Wiring} {w : Wire} (h : w ∈ g.wires) : w.dest ∈ g.endpoints :=
  List.mem_flatMap_of_mem h (List.mem_cons_of_mem _ List.mem_cons_self)

theorem verify_eq (g : Wiring) (r : Registry) :
    g.verify r = match g.endpoints.findSome? r.flaw? with
      | none => .ok ()
      | some e => .error e :=
  r.forM_endpoint g.wires Wire.src Wire.dest

theorem flaw?_of_verify {g : Wiring} {r : Registry} (h : g.verify r = .ok ()) {p : PortId}
    (hp : p ∈ g.endpoints) : r.flaw? p = none := by
  rw [verify_eq] at h
  split at h
  · next hf => exact List.findSome?_eq_none_iff.mp hf p hp
  · cases h

theorem endpoint_of_verify {g : Wiring} {r : Registry} (h : g.verify r = .ok ()) {w : Wire}
    (hw : w ∈ g.wires) : ∃ port, r.endpoint w.dest = .ok port :=
  Registry.endpoint_of_no_flaw (flaw?_of_verify h (dest_mem_endpoints hw))

end Wiring

end MixerRouting
