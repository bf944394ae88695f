import Mathlib.Data.List.Forall2
import MixerRouting.Proofs.Channel.Identities

/-!
# Channels on a registry

Channels of different tracks have no identity in common, so registering them
one after the other leads each identity to the slot of its own port, and the
slots are different too. Nothing else on the registry changes, and to remove a
channel's ports takes away its identities and no others.
-/
namespace MixerRouting

/-! ### What registering ports changes -/

namespace Registry

/-- The other registry knows the same, except perhaps about ports with these identities. -/
structure SameApart (r : Registry) (ids : List PortId) (r' : Registry) : Prop where
  ports : ∀ p, p ∉ ids → r'.ports.get? p = r.ports.get? p
  others : r' = { r with ports := r'.ports }

theorem addPorts_cons (r : Registry) (f : PortFace) (rest : List PortFace) :
    r.addPorts (f :: rest) = (f.register r).2.addPorts rest := rfl

theorem removePorts_cons (r : Registry) (f : PortFace) (rest : List PortFace) :
    r.removePorts (f :: rest) = (f.unregister r).removePorts rest := rfl

theorem get?_register (r : Registry) (f : PortFace) (p : PortId) :
    (f.register r).2.ports.get? p =
      if p = f.id then some ⟨f.label, f.slot⟩ else r.ports.get? p :=
  Table.get?_insert _ _ _ _

theorem get?_addPorts_of_not_mem {ports : List PortFace} {p : PortId}
    (hp : p ∉ ports.map PortFace.id) (r : Registry) :
    (r.addPorts ports).ports.get? p = r.ports.get? p := by
  induction ports generalizing r with
  | nil => rfl
  | cons f rest ih =>
    rw [List.map_cons, List.mem_cons, not_or] at hp
    rw [addPorts_cons, ih hp.2, get?_register, if_neg hp.1]

theorem get?_addPorts_of_mem {ports : List PortFace} (h : (ports.map PortFace.id).Nodup)
    {f : PortFace} (hf : f ∈ ports) (r : Registry) :
    (r.addPorts ports).ports.get? f.id = some ⟨f.label, f.slot⟩ := by
  induction ports generalizing r with
  | nil => cases hf
  | cons g rest ih =>
    rw [List.map_cons, List.nodup_cons] at h
    rw [addPorts_cons]
    rcases List.mem_cons.mp hf with rfl | hf
    · rw [get?_addPorts_of_not_mem h.1, get?_register, if_pos rfl]
    · exact ih h.2 hf _

theorem get?_removePorts (ports : List PortFace) (p : PortId) (r : Registry) :
    (r.removePorts ports).ports.get? p =
      if p ∈ ports.map PortFace.id then none else r.ports.get? p := by
  induction ports generalizing r with
  | nil => rfl
  | cons f rest ih =>
    have hone : (f.unregister r).ports.get? p = if p = f.id then none else r.ports.get? p :=
      Table.get?_erase _ _ _
    rw [removePorts_cons, ih, hone]
    rw [List.map_cons]
    by_cases hrest : p ∈ rest.map PortFace.id
    · rw [if_pos hrest, if_pos (List.mem_cons_of_mem _ hrest)]
    · rw [if_neg hrest]
      refine if_congr ?_ rfl rfl
      rw [List.mem_cons, or_iff_left hrest]

theorem sameApart_addPorts (r : Registry) (ports : List PortFace) :
    r.SameApart (ports.map PortFace.id) (r.addPorts ports) :=
  ⟨fun _ hp => get?_addPorts_of_not_mem hp r, r.addPorts_eq ports⟩

theorem sameApart_removePorts (r : Registry) (ports : List PortFace) :
    r.SameApart (ports.map PortFace.id) (r.removePorts ports) :=
  ⟨fun p hp => (get?_removePorts ports p r).trans (if_neg hp), r.removePorts_eq ports⟩

theorem port_of_get? {r : Registry} {p : PortId} {port : RegisteredPort}
    (h : r.ports.get? p = some port) : r.port p = .ok port := by
  simp only [Registry.port, h]

theorem endpoint_of_get? {r : Registry} {p : PortId} {port : RegisteredPort}
    (h : r.ports.get? p = some port) (hp : p.owner.plugin? = none) : r.endpoint p = .ok port := by
  have hflaw : r.flaw? p = none := by simp only [flaw?, h, hp]
  simp only [endpoint_eq, hflaw, port_of_get? h]

end Registry

/-! ### Channels of different tracks -/

namespace Channel

theorem map_id_flatMap_faces (channels : List Channel) :
    (channels.flatMap faces).map PortFace.id = channels.flatMap portIds :=
  List.map_flatMap ..

theorem nodup_flatMap_portIds {channels : List Channel}
    (hmade : ∀ c ∈ channels, ∃ signal settings, c.Made c.track signal settings)
    (htracks : (channels.map track).Nodup) : (channels.flatMap portIds).Nodup := by
  rw [List.nodup_flatMap]
  constructor
  · intro c hc
    obtain ⟨signal, settings, h⟩ := hmade c hc
    exact h.nodup_portIds
  · apply (List.pairwise_map.mp htracks).imp_of_mem
    intro c d hc hd hne p hp hp'
    obtain ⟨_, _, hmadec⟩ := hmade c hc
    obtain ⟨_, _, hmaded⟩ := hmade d hd
    have htrack := (hmadec.track?_portId hp).symm.trans (hmaded.track?_portId hp')
    exact hne (Option.some.inj htrack)

end Channel

/-- Settings that were checked have a byte for every slot, and the first slot behind the fader is
one of them or the next. -/
theorem Settings.bounds_of_check {settings : Settings} (h : settings.check = .ok ()) :
    settings.sendSlots ≤ maxSlots ∧ settings.postFaderStart ≤ settings.sendSlots := by
  unfold check at h
  split_ifs at h with hlength hcapacity hslots hstart
  exact ⟨Nat.le_of_not_lt hslots, Nat.le_of_not_lt hstart⟩

/-- What a channel is to be made for. -/
structure ChannelPlan where
  track : OwnerId
  signal : Signal
  settings : Settings

namespace ChannelPlan

def make (plan : ChannelPlan) : Building Channel :=
  Channel.create plan.track plan.signal plan.settings

/-- A new channel has one empty send for each slot, and each of its ports has an identity of its
own. -/
structure Realized (plan : ChannelPlan) (c : Channel) : Prop where
  track : c.track = plan.track
  signal : c.signal = plan.signal
  length : c.sends.length = min plan.settings.sendSlots Settings.maxSlots
  send : ∀ slot s, c.sends[slot]? = some s → s.slot.toNat = slot ∧ s.signal = plan.signal ∧
    s.isOn = false ∧ s.sidechain = false ∧
    s.isPrefader = decide (slot < plan.settings.postFaderStart)
  prefader : c.sends.countP Send.isPrefader = min plan.settings.postFaderStart c.sends.length
  checked : plan.settings.check = .ok () → c.sends.length = plan.settings.sendSlots ∧
    c.sends.countP Send.isPrefader = plan.settings.postFaderStart
  portIds : c.portIds = c.prefader.ids.ports ++ c.fader.ids.ports ++ c.sends.flatMap fun s =>
    s.enabled.id :: s.amount.id :: (s.inputs.ports ++ s.outputs.ports)
  distinct : c.portIds.Nodup
  owned : ∀ p ∈ c.portIds, p.owner.track? = some plan.track

theorem made_make (plan : ChannelPlan) (board : Board) :
    (plan.make.run board).1.Made plan.track plan.signal plan.settings :=
  Channel.made_create board

theorem realized_make (plan : ChannelPlan) (board : Board) :
    plan.Realized (plan.make.run board).1 := by
  have h := plan.made_make board
  constructor
  case track => rfl
  case signal => rfl
  case length => exact h.length_sends
  case send =>
    intro slot s hs
    have hfresh := Channel.Fresh.sends ⟨_, _, _, board, rfl⟩ (List.mem_of_getElem? hs)
    exact ⟨h.slot_send hs, h.signal_send hs, hfresh.isOn, hfresh.sidechain, h.isPrefader_send hs⟩
  case prefader => exact h.countP_isPrefader
  case checked =>
    intro hcheck
    obtain ⟨hslots, hstart⟩ := Settings.bounds_of_check hcheck
    have hlength := h.length_sends.trans (Nat.min_eq_left hslots)
    refine ⟨hlength, ?_⟩
    rw [h.countP_isPrefader, hlength, Nat.min_eq_left hstart]
  case portIds =>
    rw [Channel.portIds_eq, funext Send.portIds_eq]
  case distinct => exact h.nodup_portIds
  case owned => exact fun p hp => h.track?_portId hp

/-- What is made for a list of plans, plan by plan. -/
theorem forall₂_mapM {P : ChannelPlan → Channel → Prop}
    (h : ∀ (plan : ChannelPlan) board, P plan (plan.make.run board).1)
    (plans : List ChannelPlan) (board : Board) :
    List.Forall₂ P plans ((plans.mapM make).run board).1 := by
  induction plans generalizing board with
  | nil => exact .nil
  | cons plan rest ih =>
    rw [List.mapM_cons]
    exact .cons (h plan board) (ih _)

/-- Channels of different tracks that are made one after the other. Registered in turn, each of
their ports is found under its identity and with its own slot, which no other of them has, and all
else stays as it was. -/
theorem registered_apart {plans : List ChannelPlan} (h : (plans.map track).Nodup)
    (board : Board) (r : Registry) :
    let channels := ((plans.mapM make).run board).1
    let registered := channels.foldl (fun r c => r.addPorts c.faces) r
    List.Forall₂ Realized plans channels ∧
      (channels.flatMap Channel.portIds).Nodup ∧
      ((channels.flatMap Channel.faces).map PortFace.slot).Nodup ∧
      (∀ c ∈ channels, ∀ f ∈ c.faces, board.snapshots.length ≤ f.slot.index ∧
        registered.port f.id = .ok ⟨f.label, f.slot⟩ ∧
        registered.endpoint f.id = .ok ⟨f.label, f.slot⟩) ∧
      r.SameApart (channels.flatMap Channel.portIds) registered ∧
      ∀ c ∈ channels, ∀ r' : Registry, r'.SameApart c.portIds (r'.removePorts c.faces) ∧
        ∀ p ∈ c.portIds, (r'.removePorts c.faces).containsPort p = false := by
  intro channels registered
  have hrealized : List.Forall₂ Realized plans channels := forall₂_mapM realized_make plans board
  have hmade : ∀ c ∈ channels, ∃ signal settings, c.Made c.track signal settings := by
    intro c hc
    obtain ⟨i, hi⟩ := List.mem_iff_getElem?.mp hc
    obtain ⟨plan, board', -, rfl⟩ := Building.getElem?_run_mapM hi
    exact ⟨plan.signal, plan.settings, plan.made_make board'⟩
  have htracks : channels.map Channel.track = plans.map track := by
    rw [← List.forall₂_eq_eq_eq, List.forall₂_map_left_iff, List.forall₂_map_right_iff]
    exact hrealized.flip.imp fun _ _ hplan => hplan.track
  have hdistinct : (channels.flatMap Channel.portIds).Nodup :=
    Channel.nodup_flatMap_portIds hmade (htracks ▸ h)
  have hnumbered := Building.numbered_mapM board Channel.faces
    (fun (plan : ChannelPlan) b => Channel.numbered_create b plan.track plan.signal plan.settings)
    plans
  have hregistered : registered = r.addPorts (channels.flatMap Channel.faces) :=
    List.foldl_flatMap.symm
  rw [← Channel.map_id_flatMap_faces] at hdistinct ⊢
  refine ⟨hrealized, hdistinct, ?_, ?_, hregistered ▸ r.sameApart_addPorts _, ?_⟩
  · exact hnumbered.nodup_slots
  · intro c hc f hf
    have hmem : f ∈ channels.flatMap Channel.faces := List.mem_flatMap.mpr ⟨c, hc, hf⟩
    obtain ⟨signal, settings, hc⟩ := hmade c hc
    have hget : registered.ports.get? f.id = some ⟨f.label, f.slot⟩ :=
      hregistered ▸ Registry.get?_addPorts_of_mem hdistinct hmem r
    exact ⟨(hnumbered.slot_bounds hmem).1, Registry.port_of_get? hget,
      Registry.endpoint_of_get? hget (hc.plugin?_owner hf)⟩
  · intro c hc r'
    refine ⟨r'.sameApart_removePorts c.faces, ?_⟩
    intro p hp
    have hnone := (Registry.get?_removePorts c.faces p r').trans (if_pos hp)
    exact congrArg Option.isSome hnone

/-- An audio channel that asks for more slots than there are, and an event channel with settings
that the check accepts. -/
theorem registered_apart_of_audio_and_event :
    let audio : ChannelPlan := ⟨1, .audio, { sendSlots := 300, postFaderStart := 1 }⟩
    let event : ChannelPlan := ⟨2, .event, {}⟩
    let channels := (([audio, event].mapM make).run {}).1
    let registered : Registry := channels.foldl (fun r c => r.addPorts c.faces) {}
    ([audio, event].map track).Nodup ∧ event.settings.check = .ok () ∧
      channels.map (fun c => (c.sends.length, c.sends.countP Send.isPrefader)) =
        [(255, 1), (9, 6)] ∧
      ∀ c ∈ channels, ∀ f ∈ c.faces, registered.port f.id = .ok ⟨f.label, f.slot⟩ := by
  intro audio event channels registered
  have htracks : ([audio, event].map track).Nodup := by decide
  have hcheck : event.settings.check = .ok () := by decide +kernel
  obtain ⟨hrealized, -, -, hports, -⟩ := registered_apart htracks {} {}
  refine ⟨htracks, hcheck, ?_, fun c hc f hf => (hports c hc f hf).2.1⟩
  obtain ⟨first, rest, hfirst, hrest, hchannels⟩ := List.forall₂_cons_left_iff.mp hrealized
  obtain ⟨second, none, hsecond, hnone, rfl⟩ := List.forall₂_cons_left_iff.mp hrest
  cases hnone
  obtain ⟨hlength, hcount⟩ := hsecond.checked hcheck
  have hslots : first.sends.length = 255 := hfirst.length
  have hprefader : first.sends.countP Send.isPrefader = 1 := by
    rw [hfirst.prefader, hslots]
    rfl
  show List.map _ (([audio, event].mapM make).run {}).1 = _
  rw [hchannels, List.map_cons, List.map_singleton, hslots, hprefader, hlength, hcount]

end ChannelPlan

end MixerRouting
