import MixerRouting.Proofs.Channel.Made
import MixerRouting.Proofs.Studio.Operation

/-!
# Channels keep what they were made with

Whatever is done in a studio, no port of a channel comes or goes, and no buffer
changes its size. Every edit leaves the same channel behind when its contents
are taken away, so every channel of every state is one that was made.
-/
namespace MixerRouting

/-! ### Buffers -/

theorem StereoPair.clear_zip {f : Samples → Samples → Samples}
    (hf : ∀ x y : Samples, (f x y).size = x.size) (dst src : StereoPair) :
    (dst.zip f src).clear = dst.clear := by
  simp only [clear, AudioPort.clear, zip, hf]

theorem StereoPair.clear_clear (p : StereoPair) : p.clear.clear = p.clear := by
  simp only [clear, AudioPort.clear, Samples.size_silence]

theorem StereoPair.clear_fill (p : StereoPair) (left right : List Float32) :
    (p.fill left right).clear = p.clear := by
  have hsize : ∀ (x : Samples) (values : List Float32), (x.fill values).size = x.size :=
    fun _ _ => Array.size_mapIdx
  simp only [clear, AudioPort.clear, fill, hsize]

theorem EventPort.blank_pushAll (p : EventPort) (events : List Event) :
    (p.pushAll events).2.blank = p.blank := by
  have hcapacity : (p.queue.pushAll events).2.capacity = p.queue.capacity := by
    rw [EventQueue.pushAll_eq]
  exact congrArg (fun capacity => { p with queue := .empty capacity }) hcapacity

theorem EventPort.blank_appendWindow (p : EventPort) (w : Window) (src : EventPort) :
    (p.appendWindow w src).2.blank = p.blank :=
  p.blank_pushAll (src.queue.within w)

namespace LiveBundle

theorem blank_edit (b : LiveBundle) (e : LineEdit) : (b.edit e).blank = b.blank := by
  cases b with
  | stereo pair =>
    cases e with
    | clear => exact congrArg stereo pair.clear_clear
    | fill left right => exact congrArg stereo (pair.clear_fill left right)
    | push events => rfl
  | midi port =>
    cases e with
    | clear => rfl
    | fill left right => rfl
    | push events => exact congrArg midi (port.blank_pushAll events)

theorem bounded_edit {b : LiveBundle} (h : b.Bounded) (e : LineEdit) : (b.edit e).Bounded := by
  cases b with
  | stereo pair => cases e <;> trivial
  | midi port =>
    cases e with
    | clear => exact EventQueue.bounded_clear port.queue
    | fill left right => exact h
    | push events => exact EventQueue.bounded_pushAll h events

theorem bounded_create (signal : Signal) (owner : Owner) (direction : Direction) (label : String)
    (settings : Settings) (board : Board) :
    ((create signal owner direction label settings).run board).1.Bounded := by
  cases signal with
  | audio => trivial
  | event => exact Nat.zero_le _

end LiveBundle

/-! ### Sends -/

namespace SendLines

theorem blank_clear (lines : SendLines) : lines.clear.blank = lines.blank := by
  cases lines with
  | audio input output => exact congrArg₂ audio input.clear_clear output.clear_clear
  | event input output => rfl

theorem blank_editInput (lines : SendLines) (e : LineEdit) :
    (lines.editInput e).blank = lines.blank := by
  cases lines with
  | audio input output =>
    cases e with
    | clear => exact congrArg (audio · output.clear) input.clear_clear
    | fill left right => exact congrArg (audio · output.clear) (input.clear_fill left right)
    | push events => rfl
  | event input output =>
    cases e with
    | clear => rfl
    | fill left right => rfl
    | push events => exact congrArg (event · output.blank) (input.blank_pushAll events)

end SendLines

namespace Send

theorem blank_of_lines (s : Send) {lines : SendLines} (h : lines.blank = s.lines.blank) :
    { s with lines }.blank = s.blank :=
  congrArg (fun lines => { s.blank with lines }) h

theorem blank_applyRecord {s t : Send} {r : SendRecord} (h : s.applyRecord r = .ok t) :
    t.blank = s.blank := by
  unfold applyRecord at h
  split at h
  · cases h
    rfl
  · cases h

theorem blank_receive (s : Send) (tap : LiveBundle) (w : Window) :
    (s.receive tap w).blank = s.blank := by
  unfold receive
  split
  · next input output src h =>
    apply blank_of_lines
    rw [h]
    have hinput := StereoPair.clear_zip (Samples.size_zipWindow (fun _ x => x) w) input src
    exact congrArg (SendLines.audio · output.clear) hinput
  · next input output src h =>
    apply blank_of_lines
    rw [h]
    exact congrArg (SendLines.event · output.blank) (input.blank_appendWindow w src)
  · rfl

theorem blank_forward (s : Send) (w : Window) : (s.forward w).blank = s.blank := by
  unfold forward
  split
  · next input output h =>
    apply blank_of_lines
    rw [h]
    apply congrArg (SendLines.audio input.clear)
    apply StereoPair.clear_zip
    intro x y
    split <;> exact Samples.size_zipWindow _ w x y
  · next input output h =>
    apply blank_of_lines
    rw [h]
    exact congrArg (SendLines.event input.blank) (output.blank_appendWindow w input)

theorem blank_render (s : Send) (registry : Registry) (board : Board) (w : Window) :
    (s.render registry board w).blank = s.blank := by
  unfold render
  split
  · exact s.blank_forward w
  · rfl

theorem blank_disconnect (s : Send) (recalc : Bool) (d : Desk) :
    (s.disconnect recalc d).send.blank = s.blank := by
  rw [disconnect_eq]
  split
  · rfl
  · split
    · rfl
    · rw [finish_send]
      rfl

theorem blank_connect (s : Send) (target : Bundle) (options : ConnectOptions) (d : Desk) :
    (s.connect target options d).send.blank = s.blank := by
  have hcleared := s.blank_disconnect false d
  unfold connect
  generalize s.disconnect false d = cleared at hcleared
  split
  · rfl
  · dsimp only
    split
    · exact hcleared
    · split
      · exact hcleared
      · rw [finish_send]
        exact hcleared

end Send

/-! ### Channels -/

namespace Channel

section
variable {track : OwnerId} {signal : Signal} {settings : Settings} {c : Channel}
  (h : c.Made track signal settings)

theorem made_create (board : Board) :
    ((create track signal settings).run board).1.Made track signal settings :=
  ⟨⟨board, rfl⟩, LiveBundle.bounded_create .., LiveBundle.bounded_create ..⟩

include h

/-- Other contents in the same ports. -/
theorem Made.of_blank {c' : Channel} (hblank : c'.blank = c.blank)
    (hprefader : c'.prefader.Bounded) (hfader : c'.fader.Bounded) :
    c'.Made track signal settings :=
  ⟨hblank.symm ▸ h.blank, hprefader, hfader⟩

theorem Made.with_sends {sends : List Send} (hs : sends.map Send.blank = c.sends.map Send.blank) :
    { c with sends }.Made track signal settings :=
  h.of_blank (congrArg (fun sends => { c.blank with sends }) hs) h.prefader h.fader

theorem Made.mapSends {f : Send → Send} (hf : ∀ s, (f s).blank = s.blank) :
    { c with sends := c.sends.map f }.Made track signal settings := by
  apply h.with_sends
  rw [List.map_map]
  exact List.map_congr_left fun s _ => hf s

theorem Made.setSend {slot : Nat} {s t : Send} (hs : c.send? slot = some s)
    (ht : t.blank = s.blank) : (c.setSend slot t).Made track signal settings := by
  apply h.with_sends
  obtain ⟨hlt, hat⟩ := List.getElem?_eq_some_iff.mp (show c.sends[slot]? = some s from hs)
  have hlt' : slot < (c.sends.map Send.blank).length := by rwa [List.length_map]
  have hsame : t.blank = (c.sends.map Send.blank)[slot] := by
    rw [List.getElem_map, hat, ht]
  rw [List.map_set, hsame]
  exact List.set_getElem_self _

theorem Made.editTap (prefader : Bool) (e : LineEdit) :
    (c.editTap prefader e).Made track signal settings := by
  cases prefader with
  | true =>
    have hblank := congrArg (fun prefader => { c.blank with prefader }) (c.prefader.blank_edit e)
    exact h.of_blank hblank (LiveBundle.bounded_edit h.prefader e) h.fader
  | false =>
    have hblank := congrArg (fun fader => { c.blank with fader }) (c.fader.blank_edit e)
    exact h.of_blank hblank h.prefader (LiveBundle.bounded_edit h.fader e)

theorem Made.prepare : c.prepare.Made track signal settings :=
  h.mapSends fun s => s.blank_of_lines s.lines.blank_clear

theorem Made.process (registry : Registry) (board : Board) (w : Window) :
    (c.process registry board w).Made track signal settings := by
  apply h.mapSends
  intro s
  rw [Send.blank_render, Send.blank_receive]

end

end Channel

/-! ### Studios -/

namespace Studio

/-- Every channel has the ports that it was made with. -/
def ChannelsMade (st : Studio) : Prop :=
  ∀ c ∈ st.channels, ∃ track signal settings, c.Made track signal settings

/-- The states that operations lead to, beginning with a number of empty wirings. -/
inductive Reached (wirings : Nat) : Studio → Prop
  | start : Reached wirings (.empty wirings)
  | step {st : Studio} (op : Operation) : Reached wirings st → op.applies st →
    Reached wirings (st.perform op).2

theorem Reached.sound {wirings : Nat} {st : Studio} (h : Reached wirings st) : st.Sound := by
  induction h with
  | start => exact sound_empty wirings
  | step op _ happ ih => exact ih.perform happ

theorem blank_editedSend (st : Studio) (s : Send) (e : SendEdit) :
    (st.editedSend s e).blank = s.blank := by
  cases e with
  | setEnabledValue value => rfl
  | setFaderPosition position => rfl
  | copyValues other =>
    show (((st.send? other).map s.copyValues).getD s).blank = s.blank
    cases st.send? other <;> rfl
  | applyRecord r =>
    show ((s.applyRecord r).toOption.getD s).blank = s.blank
    cases h : s.applyRecord r with
    | error e => rfl
    | ok t => exact Send.blank_applyRecord h
  | editInput e => exact s.blank_of_lines (s.lines.blank_editInput e)
  | prepare => exact s.blank_of_lines s.lines.blank_clear
  | receive c prefader w =>
    show (((st.channel? c).map fun channel => s.receive (channel.tap prefader) w).getD s).blank =
      s.blank
    cases st.channel? c with
    | none => rfl
    | some channel => exact s.blank_receive _ w
  | render w => exact s.blank_render st.registry st.board w

section
variable {st : Studio} (h : st.ChannelsMade)
include h

theorem ChannelsMade.setChannel {c : Nat} {channel : Channel}
    (hc : ∃ track signal settings, channel.Made track signal settings) :
    (st.setChannel c channel).ChannelsMade := by
  intro other hother
  rcases List.mem_or_eq_of_mem_set hother with hother | rfl
  · exact h other hother
  · exact hc

theorem ChannelsMade.setSend {ref : SendRef} {s t : Send} (hs : st.send? ref = some s)
    (ht : t.blank = s.blank) : (st.setSend ref t).ChannelsMade := by
  cases ref with
  | loose n => exact h
  | inChannel c slot =>
    obtain ⟨channel, hc, hslot⟩ := Option.bind_eq_some_iff.mp hs
    have hset : st.setSend (.inChannel c slot) t = st.setChannel c (channel.setSend slot t) := by
      have hmodify := List.modify_eq_set_getElem? (fun channel => channel.setSend slot t) c
        st.channels
      rw [show st.channels[c]? = some channel from hc] at hmodify
      exact congrArg (fun channels => { st with channels }) hmodify
    rw [hset]
    obtain ⟨track, signal, settings, hmade⟩ := h channel (List.mem_of_getElem? hc)
    exact h.setChannel ⟨track, signal, settings, hmade.setSend hslot ht⟩

theorem ChannelsMade.onDesk {ε α : Type} (m : Nat) (f : Desk → Except ε (α × Desk)) :
    (st.onDesk m f).2.ChannelsMade := by
  unfold Studio.onDesk
  split <;> exact h

theorem ChannelsMade.onSend {ref : SendRef} {s : Send} (hs : st.send? ref = some s) (m : Nat)
    {f : Send → Desk → SendOutcome} (hf : (f s (st.desk m)).send.blank = s.blank) :
    (st.onSend ref s m f).2.ChannelsMade :=
  h.setSend hs hf

theorem ChannelsMade.act (m : Nat) (a : SendAction) : (st.act m a).2.ChannelsMade := by
  have ha := st.acts m a
  generalize st.act m a = result at ha
  cases ha with
  | absent => exact h
  | connect hs target options => exact h.onSend hs m (Send.blank_connect _ target options _)
  | disconnect hs recalc => exact h.onSend hs m (Send.blank_disconnect _ recalc _)
  | setAmount hs amount => exact h.setSend hs rfl
  | connectSends => exact h.onDesk m _

theorem ChannelsMade.work (m : Nat) (op : WiringOperation) : (st.work m op).2.ChannelsMade := by
  cases op with
  | change c => exact h.onDesk m fun d => d.perform (c.map st.wiring)
  | publish => exact h.onDesk m Desk.publish
  | recalc soft => exact h.onDesk m fun d => (d.recalc soft).map fun d => ((), d)
  | act a => exact h.act m a
  | connectToTap ref prefader fader =>
    cases hs : st.send? ref with
    | none =>
      simp only [Studio.work, hs]
      exact h
    | some s =>
      simp only [Studio.work, hs]
      exact h.onDesk m fun d => (s.connectToTap prefader fader d).map fun d => ((), d)
  | disconnectChannel c =>
    cases hc : st.channel? c with
    | none =>
      simp only [Studio.work, hc]
      exact h
    | some channel =>
      simp only [Studio.work, hc]
      exact h.onDesk m _

theorem ChannelsMade.editChannel {c : Nat} {f : Channel → Channel}
    (hf : ∀ {track signal settings} {channel : Channel}, channel.Made track signal settings →
      (f channel).Made track signal settings) :
    (((st.channel? c).map fun channel => st.setChannel c (f channel)).getD st).ChannelsMade := by
  cases hc : st.channel? c with
  | none => exact h
  | some channel =>
    obtain ⟨track, signal, settings, hmade⟩ := h channel (List.mem_of_getElem? hc)
    exact h.setChannel ⟨track, signal, settings, hf hmade⟩

theorem ChannelsMade.perform (op : Operation) : (st.perform op).2.ChannelsMade := by
  cases op with
  | work m op => exact h.work m op
  | addChannel track signal settings =>
    intro c hc
    rcases List.mem_append.mp hc with hc | hc
    · exact h c hc
    · rw [List.mem_singleton.mp hc]
      exact ⟨track, signal, settings, Channel.made_create st.board⟩
  | addPort recipe =>
    cases hmake : recipe.make with
    | error e =>
      simp only [Studio.perform, hmake]
      exact h
    | ok make =>
      simp only [Studio.perform, hmake]
      exact h
  | editPort n edit =>
    show ((st.ports[n]?.map fun p => st.setPort n (p.edit st.ports edit)).getD st).ChannelsMade
    cases st.ports[n]? <;> exact h
  | editSend ref edit =>
    show (((st.send? ref).map fun s => st.setSend ref (st.editedSend s edit)).getD st).ChannelsMade
    cases hs : st.send? ref with
    | none => exact h
    | some s => exact h.setSend hs (st.blank_editedSend s edit)
  | editTap c prefader edit => exact h.editChannel fun hmade => hmade.editTap prefader edit
  | prepareChannel c => exact h.editChannel fun hmade => hmade.prepare
  | processChannel c w => exact h.editChannel fun hmade => hmade.process st.registry st.board w
  | _ => exact h

end

theorem Reached.channelsMade {wirings : Nat} {st : Studio} (h : Reached wirings st) :
    st.ChannelsMade := by
  induction h with
  | start => exact fun c hc => absurd hc List.not_mem_nil
  | step op _ _ ih => exact ih.perform op

end Studio

end MixerRouting
