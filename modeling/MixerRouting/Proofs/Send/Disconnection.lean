import MixerRouting.Proofs.Routing.Recalculation
import MixerRouting.Proofs.Send.Rewiring

/-!
# What disconnecting a send leaves behind

Disconnecting looks at the wires and not at the switch alone, so it also clears
up after a switch that was moved behind the send's back. On the control thread it
always comes to the same wires and to a switch that is off. Only what follows it
may go wrong, a recalculation over the wires of whomever, and that takes nothing
back.
-/
namespace MixerRouting.Send

/-- Nothing for a disconnection to do. -/
def Clear (s : Send) (g : Wiring) : Prop :=
  s.isOn = false ∧ ∀ w ∈ g.wires, w.src ∉ s.outputs.ports

theorem isEmpty_wiresFrom_iff (s : Send) {g : Wiring} (h : g.Reachable) :
    (s.wiresFrom g).isEmpty = true ↔ ∀ w ∈ g.wires, w.src ∉ s.outputs.ports := by
  rw [List.isEmpty_iff, List.eq_nil_iff_forall_not_mem]
  simp only [s.mem_wiresFrom_iff h, not_and]

theorem clear_iff (s : Send) {g : Wiring} (h : g.Reachable) :
    (!s.isOn && (s.wiresFrom g).isEmpty) = true ↔ s.Clear g := by
  rw [Bool.and_eq_true, Bool.not_eq_true', s.isEmpty_wiresFrom_iff h]
  rfl

theorem cleared_eq_ofList (s : Send) {g : Wiring} (h : g.Reachable) :
    s.cleared g = .ofList (g.wires.filter fun w => w.src ∉ s.outputs.ports) := by
  have hr : (s.cleared g).Reachable := h.disconnectEach _
  rw [← s.wires_cleared h]
  exact hr.eq_ofList.1

/-- Where there is nothing to do nothing is done, on whatever thread. -/
theorem Clear.disconnect {s : Send} {d : Desk} (h : s.Clear d.wiring) (hg : d.wiring.Reachable)
    (recalc : Bool) : s.disconnect recalc d = ⟨.ok (), s, d⟩ := by
  unfold Send.disconnect
  exact if_pos ((s.clear_iff hg).mpr h)

theorem disconnect_of_not_clear {s : Send} {d : Desk} (hc : d.rendering = false)
    (hg : d.wiring.Reachable) (h : ¬ s.Clear d.wiring) (recalc : Bool) :
    s.disconnect recalc d =
      s.switchedOff.finish { d with wiring := s.cleared d.wiring } recalc := by
  rw [s.disconnect_of_control hc, if_neg (mt (s.clear_iff hg).mp h)]

/-- What the recalculation at the end of an operation comes to. -/
theorem finish_outcome (s : Send) {d : Desk} (hc : d.rendering = false) (recalc : Bool) :
    let o := s.finish d recalc
    if recalc then
      match d.wiring.endpoints.findSome? d.registry.flaw? with
      | some flaw => o.result = .error (.cause (.lookup flaw)) ∧ o.desk = d
      | none =>
        o.result = .ok () ∧ o.desk = { d with
          board := d.wiring.published d.registry d.board
          recalcs := { d.recalcs with hard := d.recalcs.hard + 1 } }
    else o.result = .ok () ∧ o.desk = d := by
  intro o
  cases recalc with
  | false => exact ⟨rfl, rfl⟩
  | true =>
    have ho : o = s.finish d true := rfl
    unfold finish at ho
    rw [if_pos rfl, Desk.recalc_of_control hc] at ho
    rw [if_pos rfl, ho]
    cases d.wiring.endpoints.findSome? d.registry.flaw? <;> exact ⟨rfl, rfl⟩

/-- Once a send was disconnected there is nothing left to do. -/
theorem clear_disconnect (s : Send) {d : Desk} (hc : d.rendering = false) (hg : d.wiring.Reachable)
    (recalc : Bool) :
    (s.disconnect recalc d).send.Clear (s.disconnect recalc d).desk.wiring := by
  by_cases h : s.Clear d.wiring
  · rw [h.disconnect hg]
    exact h
  · rw [disconnect_of_not_clear hc hg h, finish_send, finish_wiring]
    refine ⟨s.isOn_switchedOff, ?_⟩
    intro w hw
    rw [s.wires_cleared hg] at hw
    exact of_decide_eq_true (List.mem_filter.mp hw).2

/-- A disconnection on the control thread, wherever the switch stands and whoever made the wires.
The wires that leave the outputs are gone, all others stay in their order, and the switch is off.
Where it was off and no wire left the outputs, nothing happens. Otherwise the switch and the
sidechain flag are all that changes about the send; a recalculation that was asked for is made once
and counted as a hard one, or fails for the first end of a wire that does not resolve, and then
the board and the count are as they were. To disconnect again never makes a difference. -/
theorem disconnect_clears (s : Send) {d : Desk} (hc : d.rendering = false) (hg : d.wiring.Reachable)
    (recalc : Bool) :
    let o := s.disconnect recalc d
    let g := Wiring.ofList (d.wiring.wires.filter fun w => w.src ∉ s.outputs.ports)
    o.desk.wiring = g ∧ o.send.isOn = false ∧ o.send.amount = s.amount ∧
      ((s.isOn = false ∧ ∀ w ∈ d.wiring.wires, w.src ∉ s.outputs.ports) → o = ⟨.ok (), s, d⟩) ∧
      ((s.isOn = true ∨ ∃ w ∈ d.wiring.wires, w.src ∈ s.outputs.ports) →
        o.send = { s with enabled := o.send.enabled, sidechain := false } ∧
        if recalc then
          match g.endpoints.findSome? d.registry.flaw? with
          | some flaw =>
            o.result = .error (.cause (.lookup flaw)) ∧ o.desk = { d with wiring := g }
          | none =>
            o.result = .ok () ∧ o.desk = { d with
              wiring := g
              board := g.published d.registry d.board
              recalcs := { d.recalcs with hard := d.recalcs.hard + 1 } }
        else o.result = .ok () ∧ o.desk = { d with wiring := g }) ∧
      ∀ again, o.send.disconnect again o.desk = ⟨.ok (), o.send, o.desk⟩ := by
  intro o g
  have hwiring : s.cleared d.wiring = g := s.cleared_eq_ofList hg
  have hclear : o.send.Clear o.desk.wiring := s.clear_disconnect hc hg recalc
  by_cases h : s.Clear d.wiring
  · have ho : o = ⟨.ok (), s, d⟩ := h.disconnect hg recalc
    have hsame : d.wiring = g := by
      have hkept : (d.wiring.wires.filter fun w => w.src ∉ s.outputs.ports) = d.wiring.wires :=
        List.filter_eq_self.mpr fun w hw => decide_eq_true (h.2 w hw)
      rw [show g = .ofList d.wiring.wires from congrArg Wiring.ofList hkept]
      exact hg.eq_ofList.1
    rw [ho] at hclear ⊢
    refine ⟨hsame, h.1, rfl, fun _ => rfl, ?_, fun again => hclear.disconnect hg again⟩
    rintro (hon | ⟨w, hw, hs⟩)
    · exact absurd (h.1.symm.trans hon) Bool.false_ne_true
    · exact absurd hs (h.2 w hw)
  · have ho : o = s.switchedOff.finish { d with wiring := g } recalc := by
      rw [← hwiring]
      exact disconnect_of_not_clear hc hg h recalc
    have hsend : o.send = s.switchedOff := ho ▸ finish_send ..
    have hdesk : o.desk.wiring = g := ho ▸ finish_wiring ..
    have hreachable : o.desk.wiring.Reachable := by
      rw [hdesk, ← hwiring]
      exact hg.disconnectEach _
    refine ⟨hdesk, hclear.1, ?_, fun hidle => absurd hidle h, fun _ => ⟨?_, ?_⟩,
      fun again => hclear.disconnect hreachable again⟩
    · rw [hsend]
      rfl
    · rw [hsend]
      rfl
    · rw [ho]
      exact finish_outcome _ (d := { d with wiring := g }) hc recalc

/-- A send that is off but has its flag set has wires to a track and to itself, beside a wire to one
of its outputs; a wire of somebody else comes from a port that is gone. -/
theorem disconnect_clears_of_stale :
    let made := (Send.create 1 0 .audio {}).run {}
    let s := { made.1 with sidechain := true }
    let track : PortId := ⟨.trackInput 2, .audio, .input, 0, .none, none⟩
    let gone : PortId := ⟨.fader 3, .audio, .output, 0, .none, none⟩
    let wires : List (PortId × PortId) := [(s.outputs.first, track), (gone, s.outputs.first),
      (s.outputs.first, s.outputs.first), (s.outputs.first, s.inputs.first)]
    let d : Desk := ⟨false, Wiring.empty.connectLocked wires,
      ({} : Registry).addPorts s.faces, made.2, {}⟩
    let o := s.disconnect true d
    s.isOn = false ∧ d.rendering = false ∧ d.wiring.Reachable ∧
      o.result = .error (.cause (.lookup (.missingPort gone))) ∧
      o.desk.wiring.wires = [Wiring.lockedWire (gone, s.outputs.first)] ∧
      o.desk.board = d.board ∧ o.desk.recalcs = {} ∧ o.send.isOn = false ∧
      o.send.sidechain = false ∧ o.send.disconnect true o.desk = ⟨.ok (), o.send, o.desk⟩ := by
  intro made s track gone wires d o
  have hg : d.wiring.Reachable := Wiring.Reachable.empty.connectLocked wires
  obtain ⟨hwiring, hoff, -, -, hworks, hagain⟩ := s.disconnect_clears (d := d) rfl hg true
  have hleft : (d.wiring.wires.filter fun w => w.src ∉ s.outputs.ports) =
      [Wiring.lockedWire (gone, s.outputs.first)] := by decide +kernel
  have hleaves : ∃ w ∈ d.wiring.wires, w.src ∈ s.outputs.ports := by decide +kernel
  have hflaw : (Wiring.ofList [Wiring.lockedWire (gone, s.outputs.first)]).endpoints.findSome?
      d.registry.flaw? = some (.missingPort gone) := by decide +kernel
  obtain ⟨hsend, hrecalc⟩ := hworks (.inr hleaves)
  rw [hleft] at hwiring hrecalc
  simp only [if_true, hflaw] at hrecalc
  obtain ⟨hresult, hdesk⟩ := hrecalc
  have hflag := congrArg Send.sidechain hsend
  have hboard := congrArg Desk.board hdesk
  have hcount := congrArg Desk.recalcs hdesk
  exact ⟨by decide +kernel, rfl, hg, hresult, congrArg Wiring.wires hwiring, hboard, hcount, hoff,
    hflag, hagain true⟩

end MixerRouting.Send
