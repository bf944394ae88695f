import MixerRouting.Proofs.Studio.Channels

/-!
# Every port of a channel is its own

No two ports of a channel have the same identity, and channels of different
tracks have none in common. Nor do they share slots, since each port takes one
of its own from the board. So channels may be registered one after the other on
any registry: whoever looks up one of their identities finds the slot of that
very port.
-/
namespace MixerRouting

/-! ### Identities -/

/-- What tells the ports of one owner apart. -/
def PortId.place (p : PortId) : Medium × Direction × UInt16 := (p.medium, p.direction, p.index)

theorem LiveBundle.nodup_create (signal : Signal) (owner : Owner) (direction : Direction)
    (label : String) (settings : Settings) (board : Board) :
    ((create signal owner direction label settings).run board).1.ids.ports.Nodup := by
  cases signal with
  | audio =>
    apply List.Nodup.of_map PortId.place
    show [(Medium.audio, direction, (0 : UInt16)), (.audio, direction, 0 + 1)].Nodup
    cases direction <;> decide
  | event => exact List.nodup_singleton _

namespace Send

theorem portIds_blank (s : Send) : s.blank.portIds = s.portIds :=
  congrArg (List.map PortFace.id) s.faces_blank

theorem portIds_eq (s : Send) :
    s.portIds = s.enabled.id :: s.amount.id :: (s.inputs.ports ++ s.outputs.ports) := by
  have hlines : (s.lines.input.faces ++ s.lines.output.faces).map PortFace.id =
      s.inputs.ports ++ s.outputs.ports := by
    rw [List.map_append, LiveBundle.map_id_faces, LiveBundle.map_id_faces]
    rfl
  exact congrArg (s.enabled.id :: s.amount.id :: ·) hlines

theorem nodup_create (track : OwnerId) (slot : UInt8) (signal : Signal) (settings : Settings)
    (board : Board) : ((create track slot signal settings).run board).1.portIds.Nodup := by
  apply List.Nodup.of_map PortId.place
  cases signal with
  | audio =>
    show [(Medium.control, Direction.input, (0 : UInt16)), (.control, .input, 1),
      (.audio, .input, 0), (.audio, .input, 0 + 1), (.audio, .output, 0),
      (.audio, .output, 0 + 1)].Nodup
    decide
  | event =>
    show [(Medium.control, Direction.input, (0 : UInt16)), (.control, .input, 1),
      (.event, .input, 0), (.event, .output, 0)].Nodup
    decide

end Send

namespace Channel

theorem portIds_eq (c : Channel) :
    c.portIds = c.prefader.ids.ports ++ c.fader.ids.ports ++ c.sends.flatMap Send.portIds := by
  unfold portIds faces
  rw [List.map_append, List.map_append, List.map_flatMap, LiveBundle.map_id_faces,
    LiveBundle.map_id_faces]
  rfl

section
variable {track : OwnerId} {signal : Signal} {settings : Settings} {c : Channel}
  (h : c.Made track signal settings)
include h

theorem Made.owner_portId {slot : Nat} {s : Send} (hs : c.sends[slot]? = some s) {p : PortId}
    (hp : p ∈ s.portIds) : p.owner = .send track (UInt8.ofNat slot) := by
  obtain ⟨f, hf, rfl⟩ := List.mem_map.mp hp
  exact h.owner_send hs hf

theorem Made.nodup_prefader : c.prefader.ids.ports.Nodup := by
  obtain ⟨label, board, hids⟩ := h.exists_prefader
  rw [hids]
  exact LiveBundle.nodup_create ..

theorem Made.nodup_fader : c.fader.ids.ports.Nodup := by
  obtain ⟨label, board, hids⟩ := h.exists_fader
  rw [hids]
  exact LiveBundle.nodup_create ..

theorem Made.nodup_send {slot : Nat} {s : Send} (hs : c.sends[slot]? = some s) :
    s.portIds.Nodup := by
  obtain ⟨-, board, hb⟩ := h.blank_send hs
  rw [← s.portIds_blank, hb, Send.portIds_blank]
  exact Send.nodup_create ..

/-- Numbers of slots are small enough to stay different when they are cut to a byte. -/
theorem Made.nodup_sends : (c.sends.flatMap Send.portIds).Nodup := by
  rw [List.nodup_flatMap]
  constructor
  · intro s hs
    obtain ⟨slot, hslot⟩ := List.mem_iff_getElem?.mp hs
    exact h.nodup_send hslot
  · rw [List.pairwise_iff_getElem]
    intro i j hi hj hij p hp hp'
    have hfirst := List.getElem?_eq_getElem hi
    have hsecond := List.getElem?_eq_getElem hj
    have howner := (h.owner_portId hfirst hp).symm.trans (h.owner_portId hsecond hp')
    have hslots : UInt8.ofNat i = UInt8.ofNat j := (Owner.send.inj howner).2
    have hnumbers := congrArg UInt8.toNat hslots
    have hbyte : Settings.maxSlots < UInt8.size := by decide
    rw [UInt8.toNat_ofNat_of_lt' (Nat.lt_trans (h.blank_send hfirst).1 hbyte),
      UInt8.toNat_ofNat_of_lt' (Nat.lt_trans (h.blank_send hsecond).1 hbyte)] at hnumbers
    exact absurd hnumbers (Nat.ne_of_lt hij)

theorem Made.nodup_portIds : c.portIds.Nodup := by
  have htaps : (c.prefader.ids.ports ++ c.fader.ids.ports).Nodup := by
    rw [List.nodup_append']
    refine ⟨h.nodup_prefader, h.nodup_fader, ?_⟩
    intro p hp hp'
    have howner := (h.owner_prefader hp).symm.trans (h.owner_fader hp')
    cases howner
  rw [portIds_eq, List.nodup_append']
  refine ⟨htaps, h.nodup_sends, ?_⟩
  intro p hp hp'
  obtain ⟨s, hs, hsend⟩ := List.mem_flatMap.mp hp'
  obtain ⟨slot, hslot⟩ := List.mem_iff_getElem?.mp hs
  have howner := h.owner_portId hslot hsend
  rcases List.mem_append.mp hp with hp | hp
  · cases (h.owner_prefader hp).symm.trans howner
  · cases (h.owner_fader hp).symm.trans howner

/-- The sends in front of the first one behind the fader, if there is one. -/
theorem Made.countP_isPrefader :
    c.sends.countP Send.isPrefader = min settings.postFaderStart c.sends.length := by
  have hfront : ∀ s ∈ c.sends.take settings.postFaderStart, s.isPrefader = true := by
    intro s hs
    obtain ⟨slot, hlt, rfl⟩ := List.mem_take_iff_getElem.mp hs
    rw [h.isPrefader_send (List.getElem?_eq_getElem _)]
    exact decide_eq_true (Nat.lt_of_lt_of_le hlt (Nat.min_le_left _ _))
  have hback : ∀ s ∈ c.sends.drop settings.postFaderStart, ¬s.isPrefader = true := by
    intro s hs
    obtain ⟨slot, hlt, rfl⟩ := List.mem_drop_iff_getElem.mp hs
    rw [h.isPrefader_send (List.getElem?_eq_getElem _), decide_eq_true_iff]
    exact Nat.not_lt.mpr (Nat.le_add_right _ _)
  calc c.sends.countP Send.isPrefader
      = (c.sends.take settings.postFaderStart).countP Send.isPrefader +
          (c.sends.drop settings.postFaderStart).countP Send.isPrefader := by
        rw [← List.countP_append, List.take_append_drop]
    _ = (c.sends.take settings.postFaderStart).length + 0 := by
        rw [List.countP_eq_length.mpr hfront, List.countP_eq_zero.mpr hback]
    _ = min settings.postFaderStart c.sends.length := List.length_take

theorem Made.track?_portId {p : PortId} (hp : p ∈ c.portIds) : p.owner.track? = some track := by
  obtain ⟨f, hf, rfl⟩ := List.mem_map.mp hp
  exact h.track?_owner hf

end

end Channel

end MixerRouting
