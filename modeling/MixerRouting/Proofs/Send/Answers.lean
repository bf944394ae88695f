import MixerRouting.Proofs.Send.Connection

/-!
# One destination behind all answers

The questions that can be asked of a send find its wires in different ways: at
the first output or at all of them, by the index, by counting, or by a walk
along the list. On a wiring that changes led to, a send that is on and sound
leads to exactly one target, and every answer is about that target. A send
that is not sound may still be active, since that is asked of the first output
only; the answers that look there then agree with each other.
-/
namespace MixerRouting

/-- A lookup that finds something or fails for another reason than the number of neighbours. -/
def CountFree {α : Type} (x : Except LookupError α) : Prop :=
  ∀ p side found, x ≠ .error (.notSingle p side found)

namespace CountFree
variable {α β : Type}

theorem ok (a : α) : CountFree (.ok a) := nofun

theorem bind {x : Except LookupError α} {f : α → Except LookupError β} (hx : CountFree x)
    (hf : ∀ a, CountFree (f a)) : CountFree (x >>= f) := by
  cases x with
  | ok a => exact hf a
  | error e => exact fun p side found he => hx p side found (congrArg _ (Except.error.inj he))

theorem map {x : Except LookupError α} (hx : CountFree x) (f : α → β) : CountFree (f <$> x) := by
  cases x with
  | ok a => exact ok (f a)
  | error e => exact fun p side found he => hx p side found (congrArg _ (Except.error.inj he))

end CountFree

namespace Registry

theorem countFree_port (r : Registry) (p : PortId) : CountFree (r.port p) := by
  unfold port
  split <;> exact nofun

theorem countFree_track (r : Registry) (id : OwnerId) : CountFree (r.track id) := by
  unfold track
  split <;> exact nofun

theorem countFree_plugin (r : Registry) (id : OwnerId) : CountFree (r.plugin id) := by
  unfold plugin
  split <;> exact nofun

theorem countFree_designation (r : Registry) (id : OwnerId) (group : String) :
    CountFree (r.designation id group) := by
  apply (r.countFree_plugin id).bind
  intro plugin
  split <;> exact CountFree.ok _

end Registry

theorem Wiring.Reachable.single_eq_ok_iff {g : Wiring} (h : g.Reachable) (p : PortId) (w : Wire) :
    g.single p .destination = .ok w ↔ g.outgoing p = [w] := by
  obtain ⟨hg, -⟩ := h.eq_ofList
  rw [hg]
  exact Wiring.single_eq_ok_iff g.wires p .destination w

theorem Wiring.Reachable.single?_eq_some_iff {g : Wiring} (h : g.Reachable) (p : PortId)
    (w : Wire) : g.single? p .destination = some w ↔ g.outgoing p = [w] := by
  rw [← h.single_eq_ok_iff, Wiring.single?]
  cases g.single p .destination <;> simp [Except.toOption]

namespace Send

section
variable {s : Send} {g : Wiring} (hg : g.Reachable)
include hg

theorem isSound_iff :
    s.isSound g = true ↔ s.isOn = false ∨ ∀ p ∈ s.outputs.ports, (g.outgoing p).length = 1 := by
  unfold isSound
  rw [Bool.or_eq_true, Bool.not_eq_true', List.all_eq_true]
  simp only [decide_eq_true_iff, hg.count_destination]

/-- A send that takes part off the render thread has one wire at its first output. -/
theorem exists_single_of_active {registry : Registry} {board : Board} {recalcs : Recalcs}
    (h : s.isActive ⟨false, g, registry, board, recalcs⟩ = true) :
    s.isOn = true ∧ ∃ w, g.single s.outputs.first .destination = .ok w := by
  obtain ⟨hon, husable⟩ := Bool.and_eq_true_iff.mp h
  refine ⟨hon, ?_⟩
  by_contra hnone
  have hlength : (g.outgoing s.outputs.first).length ≠ 1 := by
    intro hone
    obtain ⟨w, hw⟩ := List.length_eq_one_iff.mp hone
    exact hnone ⟨w, (hg.single_eq_ok_iff _ _).mpr hw⟩
  rw [if_neg Bool.false_ne_true, s.wireUsable_eq hg, soleWire_of_length hlength] at husable
  cases husable

end

theorem targetTrack_of_single {s : Send} {g : Wiring} {w : Wire} (hon : s.isOn = true)
    (h : g.single s.outputs.first .destination = .ok w) (registry : Registry) :
    s.targetTrack g registry = .ok (registry.trackOf w.dest) := by
  unfold targetTrack
  rw [hon, h]
  rfl

/-- Of the lookups behind the name, only the first one counts wires. -/
theorem countFree_destinationName {s : Send} {g : Wiring}
    (h : CountFree (g.single s.outputs.first .destination)) (registry : Registry) :
    CountFree (s.destinationName g registry) := by
  have hlabel : ∀ p, CountFree (RegisteredPort.label <$> registry.port p) :=
    fun p => (registry.countFree_port p).map _
  unfold destinationName
  split
  · exact CountFree.ok _
  · apply h.bind
    intro w
    dsimp only
    split
    · next id _ _ =>
      split
      · exact registry.countFree_designation id _
      · exact (hlabel w.dest).bind (registry.countFree_designation id)
    · next track _ =>
      exact (registry.countFree_track track).bind fun name => CountFree.ok _
    · exact hlabel w.dest

/-! ### A send that leads to one target -/

theorem leadsTo_stereo {s : Send} {g : Wiring} {left right : PortId}
    (ho : s.outputs = .stereo left right) {v w : Wire} (hv : g.outgoing left = [v])
    (hw : g.outgoing right = [w]) : s.LeadsTo g (.stereo v.dest w.dest) := by
  have hsignal := s.signal_outputs
  rw [ho] at hsignal
  exact ⟨hsignal, by simp [ho, hv, hw]⟩

theorem exists_leadsTo {s : Send} {g : Wiring}
    (h : ∀ p ∈ s.outputs.ports, (g.outgoing p).length = 1) : ∃ target, s.LeadsTo g target := by
  have hwire : ∀ p ∈ s.outputs.ports, ∃ w, g.outgoing p = [w] :=
    fun p hp => List.length_eq_one_iff.mp (h p hp)
  cases ho : s.outputs with
  | stereo left right =>
    rw [ho] at hwire
    obtain ⟨v, hv⟩ := hwire left List.mem_cons_self
    obtain ⟨w, hw⟩ := hwire right (List.mem_cons_of_mem _ List.mem_cons_self)
    exact ⟨_, leadsTo_stereo ho hv hw⟩
  | midi p =>
    have hsignal := s.signal_outputs
    rw [ho] at hwire hsignal
    obtain ⟨w, hw⟩ := hwire p List.mem_cons_self
    exact ⟨.midi w.dest, hsignal, by simp [ho, hw]⟩

namespace LeadsTo
variable {s : Send} {g : Wiring} {target : Bundle} (h : s.LeadsTo g target)
include h

theorem isSound (hg : g.Reachable) : s.isSound g = true := by
  apply (isSound_iff hg).mpr
  right
  intro p hp
  rw [← map_fst_zip_outputs h.signal] at hp
  obtain ⟨pair, hpair, rfl⟩ := List.mem_map.mp hp
  obtain ⟨w, hw, -⟩ := h.wire pair hpair
  rw [hw]
  rfl

theorem single (hg : g.Reachable) :
    ∃ w, g.single s.outputs.first .destination = .ok w ∧ w.dest = target.first := by
  obtain ⟨w, hw, hd⟩ := h.wire (s.outputs.first, target.first)
    (zip_outputs ▸ List.mem_cons_self)
  exact ⟨w, (hg.single_eq_ok_iff _ _).mpr hw, hd⟩

theorem targetTrack (hg : g.Reachable) (hon : s.isOn = true) (registry : Registry) :
    s.targetTrack g registry = .ok (registry.trackOf target.first) := by
  obtain ⟨w, hw, hd⟩ := h.single hg
  rw [← hd]
  exact targetTrack_of_single hon hw registry

theorem connections (hg : g.Reachable) (hon : s.isOn = true) :
    (s.connections g).map Wire.ends = s.outputs.ports.zip target.ports := by
  have hends : ∀ pair ∈ s.outputs.ports.zip target.ports,
      (g.outgoing pair.1).map Wire.ends = [pair] := by
    intro pair hpair
    obtain ⟨w, hw, hd⟩ := h.wire pair hpair
    have hm : w ∈ g.outgoing pair.1 := hw ▸ List.mem_singleton_self w
    rw [hw, List.map_singleton, Wire.ends, (Wiring.mem_outgoing_iff.mp hm).2, hd]
  calc (s.connections g).map Wire.ends
    _ = (((s.outputs.ports.zip target.ports).map Prod.fst).flatMap g.outgoing).map Wire.ends := by
      rw [Send.connections, if_pos hon, s.wiresFrom_of_reachable hg,
        map_fst_zip_outputs h.signal]
    _ = (s.outputs.ports.zip target.ports).flatMap fun pair => [pair] := by
      rw [List.flatMap_map, List.map_flatMap]
      exact List.flatMap_congr hends
    _ = s.outputs.ports.zip target.ports := List.flatMap_singleton' _

theorem targetSidechain (hg : g.Reachable) (hon : s.isOn = true) :
    s.targetSidechain g = if s.signal = .audio && s.sidechain then some target else none := by
  have hsignal := s.signal_outputs
  unfold Send.targetSidechain feedsSidechain
  rw [hon, Bool.true_and]
  cases hside : s.sidechain with
  | false => simp
  | true =>
    cases ho : s.outputs with
    | midi p =>
      rw [ho] at hsignal
      simp [← hsignal, Bundle.signal]
    | stereo left right =>
      rw [ho] at hsignal
      have hwire := h.wire
      have ht := h.signal.trans hsignal.symm
      cases target with
      | midi p => cases ht
      | stereo a b =>
        rw [ho] at hwire
        obtain ⟨v, hv, rfl⟩ := hwire (left, a) List.mem_cons_self
        obtain ⟨w, hw, rfl⟩ := hwire (right, b) (List.mem_cons_of_mem _ List.mem_cons_self)
        rw [← hg.single?_eq_some_iff] at hv hw
        simp [← hsignal, Bundle.signal, hv, hw]

end LeadsTo

/-- The answer names a target only if the send is on and leads to it. -/
theorem leadsTo_of_targetSidechain {s : Send} {g : Wiring} (hg : g.Reachable) {target : Bundle}
    (h : s.targetSidechain g = some target) : s.isOn = true ∧ s.LeadsTo g target := by
  unfold targetSidechain at h
  split at h
  · next hfeeds =>
    refine ⟨(Bool.and_eq_true_iff.mp hfeeds).1, ?_⟩
    split at h
    · next left right ho =>
      obtain ⟨v, hv, h⟩ := Option.bind_eq_some_iff.mp h
      obtain ⟨w, hw, h⟩ := Option.bind_eq_some_iff.mp h
      cases h
      rw [hg.single?_eq_some_iff] at hv hw
      exact leadsTo_stereo ho hv hw
    · cases h
  · cases h

/-- Every question that can be asked of a send, on every wiring that changes led to and with every
registry. A send is sound if it is off or one wire leaves each output. If it is on and sound there
is one target that it is connected to, the wires that are told lead there channel by channel, and
the track and the sidechain are those of this target. A send that names a sidechain is connected to
it and sound, and one that is active off the render thread has a track and, if it has no name, then
not for the number of its wires. Nothing is said of a send that is off. -/
theorem answers_agree {g : Wiring} (hg : g.Reachable) (registry : Registry) (s : Send) :
    (s.isSound g = true ↔ s.isOn = false ∨ ∀ p ∈ s.outputs.ports, (g.outgoing p).length = 1) ∧
      (s.isOn = true → s.isSound g = true → ∃ target,
        (∀ b, s.isConnectedTo g b = true ↔ b = target) ∧
        s.targetTrack g registry = .ok (registry.trackOf target.first) ∧
        (s.connections g).map Wire.ends = s.outputs.ports.zip target.ports ∧
        (∀ w ∈ s.connections g, w ∈ g.wires) ∧
        s.targetSidechain g = if s.signal = .audio && s.sidechain then some target else none) ∧
      (∀ target, s.targetSidechain g = some target →
        s.isConnectedTo g target = true ∧ s.isSound g = true) ∧
      (∀ board recalcs, s.isActive ⟨false, g, registry, board, recalcs⟩ = true →
        (∃ track, s.targetTrack g registry = .ok track) ∧
          ∀ p side found, s.destinationName g registry ≠ .error (.notSingle p side found)) ∧
      (s.isOn = false →
        (∀ d, s.isActive d = false) ∧ (∀ b, s.isConnectedTo g b = false) ∧
          s.targetTrack g registry = .ok none ∧ s.targetSidechain g = none ∧
          s.connections g = []) := by
  refine ⟨isSound_iff hg, ?_, ?_, ?_, ?_⟩
  · intro hon hsound
    have hone : ∀ p ∈ s.outputs.ports, (g.outgoing p).length = 1 :=
      ((isSound_iff hg).mp hsound).resolve_left (ne_false_of_eq_true hon)
    obtain ⟨target, h⟩ := exists_leadsTo hone
    refine ⟨target, h.isConnectedTo_iff hon, h.targetTrack hg hon registry,
      h.connections hg hon, ?_, h.targetSidechain hg hon⟩
    intro w hw
    rw [connections, if_pos hon] at hw
    exact ((s.mem_wiresFrom_iff hg).mp hw).1
  · intro target ht
    obtain ⟨hon, h⟩ := leadsTo_of_targetSidechain hg ht
    exact ⟨(h.isConnectedTo_iff hon target).mpr rfl, h.isSound hg⟩
  · intro board recalcs hactive
    obtain ⟨hon, w, hw⟩ := exists_single_of_active hg hactive
    constructor
    · exact ⟨registry.trackOf w.dest, targetTrack_of_single hon hw registry⟩
    · exact countFree_destinationName (hw ▸ CountFree.ok w) registry
  · intro hoff
    simp [isActive, isConnectedTo, targetTrack, targetSidechain, feedsSidechain, connections, hoff,
      pure, Except.pure]

/-- A sidechain is fed from both outputs, and its left port from elsewhere too. Then the right
output gets a second wire: the send is no longer sound, but still active. -/
theorem answers_agree_of_stray :
    let s := ((Send.create 1 0 .audio {}).run {}).1.switchedOn true
    let left : PortId := ⟨.plugin 5, .audio, .input, 0, .stereoLeft, none⟩
    let right : PortId := ⟨.plugin 5, .audio, .input, 1, .stereoRight, none⟩
    let target : Bundle := .stereo left right
    let registry := (({} : Registry).registerPlugin 5 "gate" (some 3)).2
    let pairs := (s.inputs.first, left) :: s.outputs.ports.zip target.ports
    let g := Wiring.empty.connectLocked pairs
    let stray := g.connectLocked [(s.outputs.ports[1], s.inputs.first)]
    g.Reachable ∧ s.isSound g = true ∧ s.isConnectedTo g target = true ∧
      s.isConnectedTo g (.stereo right left) = false ∧
      s.targetTrack g registry = .ok (some 3) ∧ s.targetSidechain g = some target ∧
      stray.Reachable ∧ s.isSound stray = false ∧ s.targetSidechain stray = none ∧
      s.isActive ⟨false, stray, registry, {}, {}⟩ = true ∧
      (∃ track, s.targetTrack stray registry = .ok track) ∧
      s.destinationName stray registry ≠ .error (.notSingle s.outputs.first .destination 2) := by
  intro s left right target registry pairs g stray
  have hg : g.Reachable := Wiring.Reachable.empty.connectLocked pairs
  have hstray : stray.Reachable := hg.connectLocked _
  have hon : s.isOn = true := isOn_switchedOn _ _
  have hactive : s.isActive ⟨false, stray, registry, {}, {}⟩ = true := by decide +kernel
  have hside : s.targetSidechain g = some target := by decide +kernel
  have htwo : (stray.outgoing s.outputs.ports[1]).length = 2 := by decide +kernel
  obtain ⟨-, hone, hnamed, -⟩ := answers_agree hg registry s
  obtain ⟨hto, hsound⟩ := hnamed target hside
  obtain ⟨only, honly, htrack, -⟩ := hone hon hsound
  obtain rfl : target = only := (honly target).mp hto
  obtain ⟨hiff, -, hnamed', hworks, -⟩ := answers_agree hstray registry s
  have hunsound : s.isSound stray = false := by
    rw [Bool.eq_false_iff]
    intro h
    have hall := (hiff.mp h).resolve_left (ne_false_of_eq_true hon)
    have hlength := htwo.symm.trans (hall _ (List.getElem_mem _))
    cases hlength
  obtain ⟨htracked, hname⟩ := hworks {} {} hactive
  refine ⟨hg, hsound, hto, ?_, htrack, hside, hstray, hunsound, ?_, hactive, htracked, ?_⟩
  · rw [Bool.eq_false_iff]
    intro h
    have hswapped := (honly _).mp h
    revert hswapped
    decide +kernel
  · rw [Option.eq_none_iff_forall_ne_some]
    intro t ht
    exact Bool.false_ne_true (hunsound.symm.trans (hnamed' t ht).2)
  · exact hname _ _ _

end Send

end MixerRouting
