import MixerRouting.Proofs.Port.Queues
import MixerRouting.Proofs.Send.Fresh

/-!
# The ports of a channel for its whole life

Samples, events and control values come and go, and with them the sidechain
flags of sends; the ports that hold them stay. A channel that is stripped of
its contents is the channel as it was made, stripped likewise. Whatever is known
of a new channel apart from its contents is therefore known of it at any time:
the slots of its sends, the sizes of their buffers, who owns its ports.
-/
namespace MixerRouting

/-! ### Ports without contents -/

def EventPort.blank (p : EventPort) : EventPort := { p with queue := .empty p.queue.capacity }

namespace LiveBundle

def blank : LiveBundle → LiveBundle
  | .stereo pair => .stereo pair.clear
  | .midi port => .midi port.blank

/-- A queue holds no more events than its capacity. -/
def Bounded : LiveBundle → Prop
  | .stereo _ => True
  | .midi port => port.queue.Bounded

/-- Buffers for one block, or a queue with the capacity that the settings say. -/
def Sized (signal : Signal) (settings : Settings) : LiveBundle → Prop
  | .stereo pair => signal = .audio ∧ pair.left.samples.size = settings.blockLength ∧
      pair.right.samples.size = settings.blockLength
  | .midi port => signal = .event ∧ port.queue.capacity = settings.eventCapacity

theorem sized_blank_iff (b : LiveBundle) (signal : Signal) (settings : Settings) :
    b.blank.Sized signal settings ↔ b.Sized signal settings := by
  cases b with
  | stereo pair => simp [blank, Sized, StereoPair.clear, AudioPort.clear]
  | midi port => exact Iff.rfl

theorem faces_blank (b : LiveBundle) : b.blank.faces = b.faces := by
  cases b <;> rfl

theorem ids_blank (b : LiveBundle) : b.blank.ids = b.ids := by
  cases b <;> rfl

theorem map_id_faces (b : LiveBundle) : b.faces.map PortFace.id = b.ids.ports := by
  cases b <;> rfl

theorem sized_create (signal : Signal) (owner : Owner) (direction : Direction) (label : String)
    (settings : Settings) (board : Board) :
    ((create signal owner direction label settings).run board).1.Sized signal settings := by
  cases signal with
  | audio => exact ⟨rfl, Samples.size_silence _, Samples.size_silence _⟩
  | event => exact ⟨rfl, rfl⟩

end LiveBundle

namespace SendLines

def blank : SendLines → SendLines
  | .audio input output => .audio input.clear output.clear
  | .event input output => .event input.blank output.blank

@[simp] theorem input_blank (lines : SendLines) : lines.blank.input = lines.input.blank := by
  cases lines <;> rfl

@[simp] theorem output_blank (lines : SendLines) : lines.blank.output = lines.output.blank := by
  cases lines <;> rfl

end SendLines

namespace Send

/-- The send with its controls as they were made, its flag unset and nothing in its buffers. -/
def blank (s : Send) : Send :=
  { s with
    enabled := s.enabled.reset
    amount := s.amount.reset
    sidechain := false
    lines := s.lines.blank }

theorem faces_blank (s : Send) : s.blank.faces = s.faces := by
  simp only [faces, blank, SendLines.input_blank, SendLines.output_blank, LiveBundle.faces_blank]
  rfl

theorem outputs_blank (s : Send) : s.blank.outputs = s.outputs := by
  unfold outputs blank
  cases s.lines <;> rfl

theorem signal_blank (s : Send) : s.blank.signal = s.signal := by
  unfold signal blank
  cases s.lines <;> rfl

section
variable (track : OwnerId) (slot : UInt8) (signal : Signal) (settings : Settings) (board : Board)

theorem signal_create : ((create track slot signal settings).run board).1.signal = signal := by
  cases signal <;> rfl

theorem sized_create :
    let s := ((create track slot signal settings).run board).1
    s.lines.input.Sized signal settings ∧ s.lines.output.Sized signal settings := by
  cases signal with
  | audio =>
    exact ⟨⟨rfl, Samples.size_silence _, Samples.size_silence _⟩,
      rfl, Samples.size_silence _, Samples.size_silence _⟩
  | event => exact ⟨⟨rfl, rfl⟩, rfl, rfl⟩

/-- The identities of a send do not depend on the board that it took its slots from. -/
theorem outputs_create (board' : Board) :
    ((create track slot signal settings).run board).1.outputs =
      ((create track slot signal settings).run board').1.outputs := by
  cases signal <;> rfl

theorem slot_create : ((create track slot signal settings).run board).1.slot = slot := by
  cases signal <;> rfl

theorem postFaderStart_create :
    ((create track slot signal settings).run board).1.postFaderStart = settings.postFaderStart := by
  cases signal <;> rfl

theorem unityEpsilon_create :
    ((create track slot signal settings).run board).1.unityEpsilon = settings.unityEpsilon := by
  cases signal <;> rfl

theorem owner_of_create {f : PortFace}
    (hf : f ∈ ((create track slot signal settings).run board).1.faces) :
    f.id.owner = .send track slot := by
  have howners : ∃ n, (((create track slot signal settings).run board).1.faces.map
      fun f => f.id.owner) = List.replicate n (.send track slot) := by
    cases signal with
    | audio => exact ⟨6, rfl⟩
    | event => exact ⟨4, rfl⟩
  obtain ⟨n, hn⟩ := howners
  exact List.eq_of_mem_replicate (hn ▸ List.mem_map_of_mem hf)

end

end Send

/-! ### Channels -/

namespace Channel

def blank (c : Channel) : Channel :=
  { c with
    prefader := c.prefader.blank
    fader := c.fader.blank
    sends := c.sends.map Send.blank }

/-- The ports are those that a channel was made with; only what they hold may be different. The
queues of the taps hold no more than they have room for. -/
structure Made (track : OwnerId) (signal : Signal) (settings : Settings) (c : Channel) : Prop where
  blank : ∃ board, c.blank = ((Channel.create track signal settings).run board).1.blank
  prefader : c.prefader.Bounded
  fader : c.fader.Bounded

section
variable {track : OwnerId} {signal : Signal} {settings : Settings} {c : Channel}
  (h : c.Made track signal settings)
include h

theorem Made.sized_prefader : c.prefader.Sized signal settings := by
  obtain ⟨board, hc⟩ := h.blank
  rw [← LiveBundle.sized_blank_iff, show c.prefader.blank = _ from congrArg Channel.prefader hc]
  exact (LiveBundle.sized_blank_iff _ signal settings).mpr (LiveBundle.sized_create ..)

theorem Made.sized_fader : c.fader.Sized signal settings := by
  obtain ⟨board, hc⟩ := h.blank
  rw [← LiveBundle.sized_blank_iff, show c.fader.blank = _ from congrArg Channel.fader hc]
  exact (LiveBundle.sized_blank_iff _ signal settings).mpr (LiveBundle.sized_create ..)

theorem Made.length_sends : c.sends.length = min settings.sendSlots Settings.maxSlots := by
  obtain ⟨board, hc⟩ := h.blank
  have hlength := congrArg (fun c => c.sends.length) hc
  simp only [Channel.blank, List.length_map] at hlength
  rw [hlength]
  exact (Building.length_run_mapM ..).trans List.length_range

/-- The send at a place was made for the slot with that number. -/
theorem Made.blank_send {slot : Nat} {s : Send} (hs : c.sends[slot]? = some s) :
    slot < Settings.maxSlots ∧ ∃ board,
      s.blank = ((Send.create track (UInt8.ofNat slot) signal settings).run board).1.blank := by
  obtain ⟨board, hc⟩ := h.blank
  have hat : c.blank.sends[slot]? = some s.blank := by
    show (c.sends.map Send.blank)[slot]? = _
    rw [List.getElem?_map, hs]
    rfl
  rw [hc] at hat
  change (List.map Send.blank _)[slot]? = _ at hat
  rw [List.getElem?_map] at hat
  obtain ⟨made, hmade, he⟩ := Option.map_eq_some_iff.mp hat
  obtain ⟨n, board', hn, rfl⟩ := Building.getElem?_run_mapM hmade
  obtain ⟨hlt, rfl⟩ := List.getElem?_eq_some_iff.mp hn
  rw [List.length_range] at hlt
  rw [List.getElem_range] at he
  exact ⟨Nat.lt_of_lt_of_le hlt (Nat.min_le_right _ _), board', he.symm⟩

section
variable {slot : Nat} {s : Send} (hs : c.sends[slot]? = some s)
include hs

theorem Made.slot_send : s.slot.toNat = slot := by
  obtain ⟨hlt, board, hb⟩ := h.blank_send hs
  have he : s.slot = UInt8.ofNat slot := (congrArg Send.slot hb).trans (Send.slot_create ..)
  rw [he, UInt8.toNat_ofNat']
  exact Nat.mod_eq_of_lt (Nat.lt_of_lt_of_le hlt (by decide))

theorem Made.isPrefader_send : s.isPrefader = decide (slot < settings.postFaderStart) := by
  obtain ⟨-, board, hb⟩ := h.blank_send hs
  have hstart : s.postFaderStart = settings.postFaderStart :=
    (congrArg Send.postFaderStart hb).trans (Send.postFaderStart_create ..)
  rw [Send.isPrefader, h.slot_send hs, hstart]

theorem Made.unityEpsilon_send : s.unityEpsilon = settings.unityEpsilon := by
  obtain ⟨-, board, hb⟩ := h.blank_send hs
  exact (congrArg Send.unityEpsilon hb).trans (Send.unityEpsilon_create ..)

theorem Made.signal_send : s.signal = signal := by
  obtain ⟨-, board, hb⟩ := h.blank_send hs
  rw [← s.signal_blank, hb, Send.signal_blank]
  exact Send.signal_create ..

theorem Made.sized_send :
    s.lines.input.Sized signal settings ∧ s.lines.output.Sized signal settings := by
  obtain ⟨-, board, hb⟩ := h.blank_send hs
  have hsized := Send.sized_create track (UInt8.ofNat slot) signal settings board
  have hlines := congrArg Send.lines hb
  simp only [Send.blank] at hlines
  rw [← LiveBundle.sized_blank_iff, ← s.lines.output.sized_blank_iff, ← SendLines.input_blank,
    ← SendLines.output_blank, hlines, SendLines.input_blank, SendLines.output_blank,
    LiveBundle.sized_blank_iff, LiveBundle.sized_blank_iff]
  exact hsized

end

/-- A tap has the ports that were made for it. -/
theorem Made.exists_prefader : ∃ label board, c.prefader.ids =
    ((LiveBundle.create signal (.prefader track) .output label settings).run board).1.ids := by
  obtain ⟨board, hc⟩ := h.blank
  have hids := congrArg (fun c => c.prefader.ids) hc
  exact ⟨_, _, (LiveBundle.ids_blank _).symm.trans (hids.trans (LiveBundle.ids_blank _))⟩

theorem Made.exists_fader : ∃ label board, c.fader.ids =
    ((LiveBundle.create signal (.fader track) .output label settings).run board).1.ids := by
  obtain ⟨board, hc⟩ := h.blank
  have hids := congrArg (fun c => c.fader.ids) hc
  exact ⟨_, _, (LiveBundle.ids_blank _).symm.trans (hids.trans (LiveBundle.ids_blank _))⟩

theorem Made.owner_prefader {p : PortId} (hp : p ∈ c.prefader.ids.ports) :
    p.owner = .prefader track := by
  obtain ⟨label, board, hids⟩ := h.exists_prefader
  rw [hids] at hp
  exact LiveBundle.owner_of_create hp

theorem Made.owner_fader {p : PortId} (hp : p ∈ c.fader.ids.ports) : p.owner = .fader track := by
  obtain ⟨label, board, hids⟩ := h.exists_fader
  rw [hids] at hp
  exact LiveBundle.owner_of_create hp

theorem Made.owner_send {slot : Nat} {s : Send} (hs : c.sends[slot]? = some s) {f : PortFace}
    (hf : f ∈ s.faces) : f.id.owner = .send track (UInt8.ofNat slot) := by
  obtain ⟨-, board, hb⟩ := h.blank_send hs
  rw [← s.faces_blank, hb, Send.faces_blank] at hf
  exact Send.owner_of_create _ _ _ _ _ hf

/-- The channel's track is in the name of every port. -/
theorem Made.track?_owner {f : PortFace} (hf : f ∈ c.faces) : f.id.owner.track? = some track := by
  simp only [faces, List.mem_append, List.mem_flatMap] at hf
  rcases hf with (hf | hf) | ⟨s, hs, hf⟩
  · rw [h.owner_prefader (c.prefader.map_id_faces ▸ List.mem_map_of_mem hf)]
    rfl
  · rw [h.owner_fader (c.fader.map_id_faces ▸ List.mem_map_of_mem hf)]
    rfl
  · obtain ⟨slot, hslot⟩ := List.mem_iff_getElem?.mp hs
    rw [h.owner_send hslot hf]
    rfl

/-- No plugin owns a port of a channel. -/
theorem Made.plugin?_owner {f : PortFace} (hf : f ∈ c.faces) : f.id.owner.plugin? = none := by
  have htrack := h.track?_owner hf
  cases howner : f.id.owner with
  | plugin id =>
    rw [howner] at htrack
    cases htrack
  | _ => rfl

end

end Channel

end MixerRouting
