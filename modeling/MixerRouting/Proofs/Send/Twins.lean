import MixerRouting.Proofs.Send.Rendering
import MixerRouting.Proofs.Send.Rewiring
import MixerRouting.Proofs.Send.Views
import MixerRouting.Proofs.Wiring.Reordering
import MixerRouting.Send.Record

/-!
# Sends that nobody can tell apart

A saved send keeps less than the send has: the switch becomes a yes or no, and
slots on the board, labels and the contents of buffers are not kept. A saved
wiring has lost its order. Two sends that have the kept part in common are
twins. On wirings with the same wires, twins answer every question alike, and
after a recalculation they pass on the same windows.
-/
namespace MixerRouting

/-- Every plugin is registered on both sides or on none, and has failed on both sides or on none. -/
def Registry.FailsLike (r r' : Registry) : Prop :=
  ∀ id, (r'.plugin? id).map Plugin.failed = (r.plugin? id).map Plugin.failed

theorem Registry.FailsLike.reaches {r r' : Registry} (h : r.FailsLike r') (p : PortId) :
    r'.reaches p = r.reaches p := by
  unfold Registry.reaches
  cases p.owner.plugin? with
  | none => rfl
  | some id =>
    have hid := h id
    dsimp only
    cases hr : r.plugin? id with
    | none =>
      rw [hr] at hid
      rw [Option.map_eq_none_iff.mp hid]
    | some plugin =>
      rw [hr] at hid
      obtain ⟨plugin', hr', hfailed⟩ := Option.map_eq_some_iff.mp hid
      rw [hr']
      exact congrArg not hfailed

namespace Send

/-- Two sends that have in common all that answers and render code depend on, apart from wires and
contents. -/
structure Twin (s t : Send) : Prop where
  outputs : t.outputs = s.outputs
  prefader : t.isPrefader = s.isPrefader
  unityEpsilon : t.unityEpsilon = s.unityEpsilon
  on : t.isOn = s.isOn
  amount : t.amount.value = s.amount.value
  sidechain : t.sidechain = s.sidechain

/-- Off the render thread the two sends give the same answers, each on its own wiring. -/
structure AnswersAlike (s : Send) (g : Wiring) (t : Send) (g' : Wiring) : Prop where
  active : ∀ registry board board' recalcs recalcs',
    t.isActive ⟨false, g', registry, board', recalcs'⟩ =
      s.isActive ⟨false, g, registry, board, recalcs⟩
  name : ∀ registry, t.destinationName g' registry = s.destinationName g registry
  track : ∀ registry, t.targetTrack g' registry = s.targetTrack g registry
  sidechain : t.targetSidechain g' = s.targetSidechain g
  sound : t.isSound g' = s.isSound g
  prefader : t.isPrefader = s.isPrefader
  feedsSidechain : t.feedsSidechain = s.feedsSidechain
  connected : ∀ target, t.isConnectedTo g' target = s.isConnectedTo g target

namespace Twin

variable {s t : Send} (h : s.Twin t)
include h

theorem signal : t.signal = s.signal := by
  rw [← t.signal_outputs, h.outputs, s.signal_outputs]

theorem scaled : t.scaled = s.scaled := by
  funext x
  rw [Send.scaled, Send.scaled, countsAsUnity, countsAsUnity, h.amount, h.unityEpsilon]

theorem answersAlike {g g' : Wiring} (hg : g.Reachable) (hg' : g'.Reachable)
    (hp : g'.wires.Perm g.wires) : s.AnswersAlike g t g' := by
  have hsingle := Wiring.single_perm hp hg hg'
  have hfeeds : t.feedsSidechain = s.feedsSidechain := by
    rw [feedsSidechain, h.on, h.sidechain, feedsSidechain]
  constructor
  case active =>
    intro registry board board' recalcs recalcs'
    simp only [isActive, wireUsable, Wiring.single?, hsingle, h.on, h.outputs, Bool.false_eq_true,
      if_false]
  case name =>
    intro registry
    simp only [destinationName, hsingle, h.on, h.outputs, h.prefader, h.sidechain]
  case track =>
    intro registry
    simp only [targetTrack, hsingle, h.on, h.outputs]
  case sidechain => simp only [targetSidechain, Wiring.single?, hsingle, hfeeds, h.outputs]
  case sound => simp only [isSound, Wiring.count_perm hp hg hg', h.on, h.outputs]
  case prefader => exact h.prefader
  case feedsSidechain => exact hfeeds
  case connected =>
    intro target
    simp only [isConnectedTo, Wiring.isSome_find?_perm hp, h.on, h.signal, h.outputs]

/-- After a recalculation on either side, both pass their inputs on or neither does. -/
theorem passes {d d' after after' : Desk} {soft soft' : Bool}
    (hg : d.wiring.Reachable) (hg' : d'.wiring.Reachable)
    (hp : d'.wiring.wires.Perm d.wiring.wires) (hs : s.Lends d) (ht : t.Lends d')
    (hafter : d.recalc soft = .ok after) (hafter' : d'.recalc soft' = .ok after')
    (hfails : after.registry.FailsLike after'.registry) :
    t.passes after'.registry after'.board = s.passes after.registry after.board := by
  have hroutes : s.routeUsable d.registry after.board = _ := routeUsable_of_recalc hg hs hafter []
  have hroutes' : t.routeUsable d'.registry after'.board = _ :=
    routeUsable_of_recalc hg' ht hafter' []
  obtain ⟨-, -, recalcs, rfl⟩ := Desk.recalc_eq_ok hafter
  obtain ⟨-, -, recalcs', rfl⟩ := Desk.recalc_eq_ok hafter'
  rw [Send.passes, Send.passes, h.on]
  apply congrArg
  refine hroutes'.trans (Eq.trans ?_ hroutes.symm)
  rw [h.outputs]
  have hwires := (Wiring.outgoing_perm hp s.outputs.first).filter Wire.enabled
  rw [soleWire_perm hwires]
  exact soleWire_congr fun w _ => hfails.reaches w.dest

end Twin

end Send

end MixerRouting
