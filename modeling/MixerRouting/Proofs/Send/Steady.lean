import Mathlib.Logic.Basic
import MixerRouting.Proofs.Send.Fresh
import MixerRouting.Proofs.Send.Rewiring
import MixerRouting.Send.Observe

/-!
# The steady states of a send

A send is idle or engaged. Connecting and disconnecting lead from one of the
states to one of them, however they end: a target may be refused and a
recalculation may fail, and nothing is assumed of either. Wires that leave
other ports than the send's own outputs stay as they are.
-/
namespace MixerRouting

namespace Send

/-- Off, feeding no sidechain, and no wire leaves the outputs. -/
structure Idle (s : Send) (g : Wiring) : Prop where
  off : s.isOn = false
  plain : s.sidechain = false
  free : ∀ p ∈ s.outputs.ports, g.outgoing p = []

/-- On, and one wire leaves each output, which is locked, enabled and of gain one. -/
structure Engaged (s : Send) (g : Wiring) : Prop where
  on : s.isOn = true
  led : ∀ p ∈ s.outputs.ports, ∃ w, g.outgoing p = [w] ∧
    w.locked = true ∧ w.enabled = true ∧ w.gain = 1

def Settled (s : Send) (g : Wiring) : Prop := s.Idle g ∨ s.Engaged g

variable {s : Send} {g g' : Wiring}

theorem Settled.of_outgoing (h : s.Settled g)
    (ho : ∀ p ∈ s.outputs.ports, g'.outgoing p = g.outgoing p) : s.Settled g' := by
  rcases h with h | h
  · refine .inl ⟨h.off, h.plain, ?_⟩
    intro p hp
    rw [ho p hp, h.free p hp]
  · refine .inr ⟨h.on, ?_⟩
    intro p hp
    rw [ho p hp]
    exact h.led p hp

theorem Settled.setAmount (h : s.Settled g) (amount : Float32) : (s.setAmount amount).Settled g :=
  h.imp (fun h => ⟨h.off, h.plain, h.free⟩) fun h => ⟨h.on, h.led⟩

/-- The states exclude each other. -/
theorem Settled.xor (h : s.Settled g) : Xor (s.Idle g) (s.Engaged g) := by
  rcases h with h | h
  · exact .inl ⟨h, fun he => Bool.false_ne_true (h.off.symm.trans he.on)⟩
  · exact .inr ⟨h, fun hi => Bool.false_ne_true (hi.off.symm.trans h.on)⟩

theorem Settled.isSound (h : s.Settled g) (hr : g.Reachable) : s.isSound g = true := by
  unfold Send.isSound
  rcases h with h | h
  · rw [h.off]
    rfl
  · rw [h.on, Bool.not_true, Bool.false_or, List.all_eq_true]
    intro p hp
    obtain ⟨w, hw, -⟩ := h.led p hp
    rw [hr.count_destination, hw]
    rfl

/-- What a send keeps for its whole life. -/
def place (s : Send) : Owner × Bundle := (s.owner, s.outputs)

/-- What an operation on a send keeps: the place of the send, and the wires of all ports that are
not its outputs. The send is settled afterwards. -/
structure Keeps (s : Send) (d : Desk) (o : SendOutcome) : Prop where
  place : o.send.place = s.place
  reachable : o.desk.wiring.Reachable
  frame : ∀ p ∉ s.outputs.ports, o.desk.wiring.outgoing p = d.wiring.outgoing p
  settled : o.send.Settled o.desk.wiring

theorem Keeps.finish {t : Send} {d d' : Desk} (h : s.Keeps d ⟨.ok (), t, d'⟩) (recalc : Bool) :
    s.Keeps d (t.finish d' recalc) := by
  constructor
  · rw [finish_send]
    exact h.place
  · rw [finish_wiring]
    exact h.reachable
  · rw [finish_wiring]
    exact h.frame
  · rw [finish_send, finish_wiring]
    exact h.settled

section
variable {d : Desk} (hc : d.rendering = false) (hr : d.wiring.Reachable)
  (hs : s.Settled d.wiring)
include hc hr hs

theorem disconnect_keeps (recalc : Bool) : s.Keeps d (s.disconnect recalc d) := by
  have hg : (s.cleared d.wiring).Reachable := hr.disconnectEach _
  have ho := s.outgoing_cleared hr
  have hfree : ∀ p ∈ s.outputs.ports, (s.cleared d.wiring).outgoing p = [] :=
    fun p hp => (ho p).trans (if_pos hp)
  have hframe : ∀ p ∉ s.outputs.ports, (s.cleared d.wiring).outgoing p = d.wiring.outgoing p :=
    fun p hp => (ho p).trans (if_neg hp)
  rw [s.disconnect_of_control hc]
  split
  · next hidle =>
    rw [Bool.and_eq_true, Bool.not_eq_true'] at hidle
    -- Nothing was done, so the flag is off only because an idle send has it off.
    have hplain : s.sidechain = false := by
      rcases hs with hi | he
      · exact hi.plain
      · exact absurd (hidle.1.symm.trans he.on) Bool.false_ne_true
    exact ⟨rfl, hg, hframe, .inl ⟨hidle.1, hplain, hfree⟩⟩
  · have hidle : s.switchedOff.Idle (s.cleared d.wiring) := ⟨s.isOn_switchedOff, rfl, hfree⟩
    have hkeeps : s.Keeps d ⟨.ok (), s.switchedOff, { d with wiring := s.cleared d.wiring }⟩ :=
      ⟨rfl, hg, hframe, .inl hidle⟩
    exact hkeeps.finish recalc

theorem connect_keeps (hn : s.outputs.ports.Nodup) (target : Bundle) (options : ConnectOptions) :
    s.Keeps d (s.connect target options d) := by
  cases ht : s.checkTarget target options.accepts d.registry with
  | error e =>
    rw [connect_of_refused ht]
    exact ⟨rfl, hr, fun _ _ => rfl, hs⟩
  | ok =>
    rw [connect_of_control hc ht]
    have hsignal := signal_of_checkTarget ht
    have hengaged : (s.connected target options).Engaged (s.rewired d.wiring target) := by
      refine ⟨s.isOn_switchedOn _, ?_⟩
      intro p hp
      rw [connected, outputs_switchedOn, ← map_fst_zip_outputs hsignal] at hp
      obtain ⟨pair, hpair, rfl⟩ := List.mem_map.mp hp
      exact ⟨_, outgoing_rewired hr hn hsignal hpair, rfl, rfl, rfl⟩
    apply Keeps.finish
    exact ⟨rfl, reachable_rewired hr target, fun p hp => outgoing_rewired_of_ne hr target hp,
      .inr hengaged⟩

end

end Send

end MixerRouting
