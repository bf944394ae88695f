import MixerRouting.Proofs.Routing.Publication
import MixerRouting.Proofs.Wiring.Outgoing

/-!
# A recalculation is all or nothing

On the control thread a recalculation has two outcomes. If some end of a wire
does not resolve it answers what is wrong with the first such end, in the order
of the wires, and the studio stays as it was. Otherwise it is counted, every
registered port has the routes along its enabled wires, and nothing else of the
studio changes. What the routes of different ports have to do with each other
follows from their being taken from one list of wires.
-/
namespace MixerRouting

/-- One more recalculation. -/
def Recalcs.count (r : Recalcs) (soft : Bool) : Recalcs :=
  if soft then { r with soft := r.soft + 1 } else { r with hard := r.hard + 1 }

theorem Desk.recalc_of_control {d : Desk} (hc : d.rendering = false) (soft : Bool) :
    d.recalc soft = match d.wiring.endpoints.findSome? d.registry.flaw? with
      | some e => .error (.cause e)
      | none => .ok { d with
          board := d.wiring.published d.registry d.board
          recalcs := d.recalcs.count soft } := by
  unfold recalc publish guardControl
  rw [Wiring.verify_eq, hc]
  cases d.wiring.endpoints.findSome? d.registry.flaw? <;> rfl

/-- A recalculation on the control thread fails for nothing but the first end with a flaw. -/
theorem Desk.recalc_eq_error {d : Desk} (hc : d.rendering = false) {soft : Bool}
    {fault : Fault LookupError} (h : d.recalc soft = .error fault) :
    ∃ flaw, d.wiring.endpoints.findSome? d.registry.flaw? = some flaw ∧ fault = .cause flaw := by
  rw [recalc_of_control hc] at h
  split at h
  · next flaw hflaw => exact ⟨flaw, hflaw, (Except.error.inj h).symm⟩
  · cases h

/-- Where every end of a wire resolves, the port at the other end of a route is registered, and the
route has the handle of the plugin that owns it. -/
theorem Wiring.peer_of_mem_routesAlong {g : Wiring} {r : Registry}
    (hg : g.endpoints.findSome? r.flaw? = none) {p : PortId} {route : Route}
    (h : route ∈ (r.routesAlong g.wires p).sources ++ (r.routesAlong g.wires p).destinations) :
    (∃ peer, r.ports.get? route.peer = some peer) ∧
      ∀ id, route.peer.owner.plugin? = some id →
        ∃ handle, r.plugins.get? id = some handle ∧ route.plugin = some handle := by
  obtain ⟨w, hw, hend, hplugin⟩ := Registry.mem_routesAlong h
  have hpeer : route.peer ∈ g.endpoints := by
    rcases hend with he | he
    · exact he ▸ Wiring.src_mem_endpoints hw
    · exact he ▸ Wiring.dest_mem_endpoints hw
  have hok : r.flaw? route.peer = none := List.findSome?_eq_none_iff.mp hg _ hpeer
  refine ⟨Registry.registered_of_no_flaw hok, ?_⟩
  intro id hid
  obtain ⟨handle, -, hh, -⟩ := Registry.plugin_of_no_flaw hok hid
  refine ⟨handle, hh, ?_⟩
  rw [hplugin, Registry.hostOf, hid]
  exact hh

namespace Studio

theorem set_wiring (st : Studio) (m : Nat) : st.wirings.set m (st.wiring m) = st.wirings := by
  unfold wiring
  by_cases hm : m < st.wirings.length
  · rw [List.getElem?_eq_getElem hm]
    exact List.set_getElem_self hm
  · exact List.set_eq_of_length_le (Nat.le_of_not_lt hm)

theorem recalc_of_control {st : Studio} (hc : st.mark.rendering = false) (m : Nat) (soft : Bool) :
    st.onDesk_ m (fun d => d.recalc soft) =
      match (st.wiring m).endpoints.findSome? st.registry.flaw? with
      | some e => (.error (.cause e), st)
      | none => (.ok (), { st with
          board := (st.wiring m).published st.registry st.board
          recalcs := st.recalcs.count soft }) := by
  have hd := (st.desk m).recalc_of_control hc soft
  simp only [onDesk_, onDesk, hd]
  simp only [desk]
  cases (st.wiring m).endpoints.findSome? st.registry.flaw? with
  | some e => rfl
  | none =>
    simp only [Except.map, withDesk, set_wiring]

/-- A recalculation on the control thread, where no slot is registered twice. With a flaw at some
end of a wire it answers the first one and changes nothing. Otherwise it is counted, and each
registered port gets its enabled wires, in their order, with their gains and with the handles
under which the plugins at the other ends are registered. Everybody on such a list is registered,
plugins included, and two ports list each other equally often and with the same gains. -/
theorem recalc_all_or_nothing {st : Studio} {m : Nat} (hc : st.mark.rendering = false)
    (hg : (st.wiring m).Reachable) (hb : st.registry.OnBoard st.board)
    (ha : st.registry.SlotsApart) (soft : Bool) :
    let (answer, st') := st.onDesk_ m fun d => d.recalc soft
    match (st.wiring m).endpoints.findSome? st.registry.flaw? with
    | some e => answer = .error (.cause e) ∧ st' = st
    | none =>
      answer = .ok () ∧
      st' = { st with board := st'.board, recalcs := st.recalcs.count soft } ∧
      (∀ p port, st.registry.ports.get? p = some port →
        st'.board.read port.slot = st.registry.routesAlong (st.wiring m).wires p) ∧
      (∀ slot, (∀ p port, st.registry.ports.get? p = some port → port.slot ≠ slot) →
        st'.board.read slot = st.board.read slot) ∧
      (∀ p port, st.registry.ports.get? p = some port →
        ∀ route ∈ (st'.board.read port.slot).sources ++ (st'.board.read port.slot).destinations,
          (∃ peer, st.registry.ports.get? route.peer = some peer) ∧
          ∀ id, route.peer.owner.plugin? = some id →
            ∃ handle, st.registry.plugins.get? id = some handle ∧ route.plugin = some handle) ∧
      ∀ p q port port', st.registry.ports.get? p = some port →
        st.registry.ports.get? q = some port' →
        ((st'.board.read port.slot).destinations.filter fun route =>
          route.peer = q).map Route.gain =
        ((st'.board.read port'.slot).sources.filter fun route =>
          route.peer = p).map Route.gain := by
  rw [recalc_of_control hc]
  cases hflaw : (st.wiring m).endpoints.findSome? st.registry.flaw? with
  | some e => exact ⟨rfl, rfl⟩
  | none =>
    have hread := hg.read_published hb ha
    have hport : ∀ p port, st.registry.ports.get? p = some port →
        ((st.wiring m).published st.registry st.board).read port.slot =
          st.registry.routesAlong (st.wiring m).wires p := by
      intro p port hp
      rw [hread, (Registry.holder?_eq_some_iff ha port.slot p).mpr ⟨port, hp, rfl⟩]
    refine ⟨rfl, rfl, hport, ?_, ?_, ?_⟩
    · intro slot hfree
      rw [hread, Registry.holder?_eq_none_of_free ha hfree]
    · intro p port hp route hroute
      rw [hport p port hp] at hroute
      exact Wiring.peer_of_mem_routesAlong hflaw hroute
    · intro p q port port' hp hq
      rw [hport p port hp, hport q port' hq]
      exact st.registry.gains_routesAlong (st.wiring m).wires p q

/-- A fader feeds a plugin through one wire and has a disabled one to a track; the track's input
lost a wire since the last time. -/
theorem recalc_all_or_nothing_of_plugin :
    let a : PortId := ⟨.fader 1, .audio, .output, 0, .none, none⟩
    let b : PortId := ⟨.plugin 5, .audio, .input, 0, .none, none⟩
    let c : PortId := ⟨.trackInput 2, .audio, .input, 0, .none, none⟩
    let bare := (((Studio.empty 1).registerFresh a "out").2.registerFresh b "in").2
    let full := (bare.registerFresh c "track").2
    let wires : Wiring := (((Wiring.empty.connect a c 1 true false).2).connect a b 2 false true).2
    let st : Studio := { full with
      wirings := [wires], registry := (full.registry.registerPlugin 5 "gate" none).2,
      board := full.board.post ⟨2⟩ ⟨[⟨a, 1, none⟩], []⟩ }
    let st' := (st.onDesk_ 0 fun d => d.recalc true).2
    st'.recalcs = ⟨0, 1⟩ ∧ st'.board.read ⟨0⟩ = ⟨[], [⟨b, 2, some ⟨0⟩⟩]⟩ ∧
      st'.board.read ⟨1⟩ = ⟨[⟨a, 2, none⟩], []⟩ ∧ st'.board.read ⟨2⟩ = .empty := by
  intro a b c bare full wires st st'
  have hg : (st.wiring 0).Reachable := .connect (.connect .empty _ _ _ _ _) _ _ _ _ _
  have hb : st.registry.OnBoard st.board := by decide +kernel
  have ha : st.registry.SlotsApart := by decide +kernel
  have hnone : (st.wiring 0).endpoints.findSome? st.registry.flaw? = none := by decide +kernel
  have h := recalc_all_or_nothing rfl hg hb ha true
  simp only [hnone] at h
  obtain ⟨-, hst, hport, -, -, -⟩ := h
  have hroutes : st.registry.routesAlong (st.wiring 0).wires a = ⟨[], [⟨b, 2, some ⟨0⟩⟩]⟩ ∧
      st.registry.routesAlong (st.wiring 0).wires b = ⟨[⟨a, 2, none⟩], []⟩ ∧
      st.registry.routesAlong (st.wiring 0).wires c = .empty := by decide +kernel
  refine ⟨congrArg Studio.recalcs hst, ?_, ?_, ?_⟩
  · exact (hport a ⟨"out", ⟨0⟩⟩ (by decide +kernel)).trans hroutes.1
  · exact (hport b ⟨"in", ⟨1⟩⟩ (by decide +kernel)).trans hroutes.2.1
  · exact (hport c ⟨"track", ⟨2⟩⟩ (by decide +kernel)).trans hroutes.2.2

end Studio

end MixerRouting
