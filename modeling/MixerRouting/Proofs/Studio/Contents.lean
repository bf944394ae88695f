import Mathlib.Data.List.Basic
import MixerRouting.Studio.Basic

/-!
# The contents of ports

Buffers, queues and control values change from block to block, by hand or by
rendering. Whatever is done to them, a port keeps its identity, its label and
its slot on the board.
-/
namespace MixerRouting

/-! ### Lines -/

/-- What is done to the contents of the ports for one signal. An edit for the other signal does
nothing. -/
inductive LineEdit where
  | clear
  | fill (left right : List Float32)
  | push (events : List Event)

namespace LiveBundle

def edit : LiveBundle → LineEdit → LiveBundle
  | b, .clear => b.clear
  | .stereo pair, .fill left right => .stereo (pair.fill left right)
  | .midi port, .push events => .midi (port.pushAll events).2
  | b, _ => b

theorem faces_edit (b : LiveBundle) (e : LineEdit) : (b.edit e).faces = b.faces := by
  cases b <;> cases e <;> rfl

end LiveBundle

/-! ### Ports that stand on their own -/

/-- What is done to the contents of a port. Other ports are named by their numbers. -/
inductive PortEdit where
  | clear
  | fill (left right : List Float32)
  | push (events : List Event)
  | takeDropped
  | set (value : Float32)
  | switch (on : Bool)
  | reset
  | copy (src : Nat) (w : Window)
  | mix (src : Nat) (gain : Float32) (w : Window)
  | append (src : Nat) (w : Window)

namespace LivePort

def onEvents (f : EventPort → EventPort) : LivePort → LivePort
  | .midi port => .midi (f port)
  | p => p

def onControl (f : ControlPort → ControlPort) : LivePort → LivePort
  | .control port => .control (f port)
  | p => p

/-- Appends the events of another port that holds any. -/
def append (p : LivePort) (w : Window) : LivePort → LivePort
  | .midi src => p.onEvents fun port => (port.appendWindow w src).2
  | _ => p

def edit (p : LivePort) (others : List LivePort) : PortEdit → LivePort
  | .clear => p.clear
  | .fill left right => p.fill left right
  | .push events => p.onEvents fun port => (port.pushAll events).2
  | .takeDropped => p.onEvents fun port => { port with queue := port.queue.takeDropped.2 }
  | .set value => p.onControl fun port => port.set value
  | .switch on => p.onControl fun port => port.switch on
  | .reset => p.onControl ControlPort.reset
  | .copy src w => (others[src]?.map (p.zip (Samples.copyWindow w))).getD p
  | .mix src gain w => (others[src]?.map (p.zip (Samples.mixWindow gain w))).getD p
  | .append src w => (others[src]?.map (p.append w)).getD p

theorem faces_zip (f : Samples → Samples → Samples) (dst src : LivePort) :
    (dst.zip f src).faces = dst.faces := by
  cases dst <;> cases src <;> rfl

theorem faces_append (p : LivePort) (w : Window) (src : LivePort) :
    (p.append w src).faces = p.faces := by
  cases src <;> cases p <;> rfl

theorem faces_edit (p : LivePort) (others : List LivePort) (e : PortEdit) :
    (p.edit others e).faces = p.faces := by
  have hother : ∀ (f : LivePort → LivePort) (src : Nat), (∀ q, (f q).faces = p.faces) →
      ((others[src]?.map f).getD p).faces = p.faces := by
    intro f src hf
    cases others[src]? with
    | none => rfl
    | some q => exact hf q
  cases e with
  | copy src w => exact hother _ src (p.faces_zip _)
  | mix src gain w => exact hother _ src (p.faces_zip _)
  | append src w => exact hother _ src (p.faces_append w)
  | _ => cases p <;> rfl

end LivePort

/-! ### Sends -/

/-- What is done to a send apart from the wires. Other sends and channels are named. -/
inductive SendEdit where
  | setEnabledValue (value : Float32)
  | setFaderPosition (position : Float32)
  | copyValues (other : SendRef)
  | applyRecord (r : SendRecord)
  | editInput (e : LineEdit)
  | prepare
  /-- Takes over one of the taps of a channel. -/
  | receive (channel : Nat) (prefader : Bool) (w : Window)
  | render (w : Window)

def SendLines.editInput : SendLines → LineEdit → SendLines
  | .audio input output, .clear => .audio input.clear output
  | .audio input output, .fill left right => .audio (input.fill left right) output
  | .event input output, .clear => .event input.clear output
  | .event input output, .push events => .event (input.pushAll events).2 output
  | lines, _ => lines

namespace Send

theorem faces_of_lines (s : Send) {lines : SendLines}
    (hin : lines.input.faces = s.lines.input.faces)
    (hout : lines.output.faces = s.lines.output.faces) : { s with lines }.faces = s.faces := by
  simp only [faces, hin, hout]

theorem faces_editInput (s : Send) (e : LineEdit) :
    { s with lines := s.lines.editInput e }.faces = s.faces := by
  apply faces_of_lines <;> cases s.lines <;> cases e <;> rfl

theorem faces_applyRecord {s t : Send} {r : SendRecord} (h : s.applyRecord r = .ok t) :
    t.faces = s.faces := by
  unfold applyRecord at h
  split at h
  · cases h
    rfl
  · cases h

theorem faces_prepare (s : Send) : s.prepare.faces = s.faces := by
  apply faces_of_lines <;> cases s.lines <;> rfl

theorem faces_receive (s : Send) (tap : LiveBundle) (w : Window) :
    (s.receive tap w).faces = s.faces := by
  unfold receive
  split
  · next h => exact faces_of_lines s (by rw [h]; rfl) (by rw [h]; rfl)
  · next h => exact faces_of_lines s (by rw [h]; rfl) (by rw [h]; rfl)
  · rfl

theorem faces_forward (s : Send) (w : Window) : (s.forward w).faces = s.faces := by
  unfold forward
  split
  · next h => exact faces_of_lines s (by rw [h]; rfl) (by rw [h]; rfl)
  · next h => exact faces_of_lines s (by rw [h]; rfl) (by rw [h]; rfl)

theorem faces_render (s : Send) (registry : Registry) (board : Board) (w : Window) :
    (s.render registry board w).faces = s.faces := by
  unfold render
  split
  · exact s.faces_forward w
  · rfl

end Send

/-! ### Channels -/

namespace Channel

def tap (c : Channel) (prefader : Bool) : LiveBundle := if prefader then c.prefader else c.fader

def editTap (c : Channel) (prefader : Bool) (e : LineEdit) : Channel :=
  if prefader then { c with prefader := c.prefader.edit e } else { c with fader := c.fader.edit e }

theorem faces_editTap (c : Channel) (prefader : Bool) (e : LineEdit) :
    (c.editTap prefader e).faces = c.faces := by
  unfold editTap faces
  split <;> simp only [LiveBundle.faces_edit]

/-- An edit of every send. -/
theorem faces_mapSends (c : Channel) {f : Send → Send} (hf : ∀ s, (f s).faces = s.faces) :
    { c with sends := c.sends.map f }.faces = c.faces := by
  unfold faces
  rw [List.flatMap_map]
  simp only [hf]

theorem faces_prepare (c : Channel) : c.prepare.faces = c.faces :=
  c.faces_mapSends Send.faces_prepare

theorem faces_process (c : Channel) (registry : Registry) (board : Board) (w : Window) :
    (c.process registry board w).faces = c.faces := by
  apply c.faces_mapSends
  intro s
  rw [Send.faces_render, Send.faces_receive]

end Channel

/-! ### All ports of a studio -/

/-- Editing one element changes nothing about the lists of all elements, if it keeps its own. -/
theorem flatMap_modify {α β : Type} {f : α → List β} {g : α → α} {xs : List α} {n : Nat}
    (h : ∀ x, xs[n]? = some x → f (g x) = f x) : (xs.modify n g).flatMap f = xs.flatMap f := by
  induction xs generalizing n with
  | nil => rw [List.modify_nil]
  | cons x xs ih =>
    cases n with
    | zero => exact congrArg (· ++ xs.flatMap f) (h x rfl)
    | succ n => exact congrArg (f x ++ ·) (ih h)

theorem flatMap_set {α β : Type} {f : α → List β} {xs : List α} {n : Nat} {y : α}
    (h : ∀ x, xs[n]? = some x → f y = f x) : (xs.set n y).flatMap f = xs.flatMap f := by
  rw [List.set_eq_modify]
  exact flatMap_modify h

namespace Studio

/-- The ports of channels, of sends beside them and all others. -/
def faces (st : Studio) : List PortFace :=
  st.channels.flatMap Channel.faces ++ st.sends.flatMap Send.faces ++
    st.ports.flatMap LivePort.faces

variable {st : Studio}

theorem faces_setPort {n : Nat} {p t : LivePort} (hp : st.ports[n]? = some p)
    (h : t.faces = p.faces) : (st.setPort n t).faces = st.faces := by
  have hports : (st.ports.set n t).flatMap LivePort.faces = st.ports.flatMap LivePort.faces :=
    flatMap_set fun q hq => h.trans (congrArg _ (Option.some.inj (hp.symm.trans hq)))
  exact congrArg (_ ++ ·) hports

theorem faces_setChannel {c : Nat} {channel t : Channel} (hc : st.channel? c = some channel)
    (h : t.faces = channel.faces) : (st.setChannel c t).faces = st.faces := by
  have hchannels :
      (st.channels.set c t).flatMap Channel.faces = st.channels.flatMap Channel.faces :=
    flatMap_set fun q hq => h.trans (congrArg _ (Option.some.inj (hc.symm.trans hq)))
  exact congrArg (· ++ _ ++ _) hchannels

theorem faces_setSend {ref : SendRef} {s t : Send} (hs : st.send? ref = some s)
    (h : t.faces = s.faces) : (st.setSend ref t).faces = st.faces := by
  cases ref with
  | loose n =>
    have hsends : (st.sends.set n t).flatMap Send.faces = st.sends.flatMap Send.faces :=
      flatMap_set fun q hq => h.trans (congrArg _ (Option.some.inj (hs.symm.trans hq)))
    exact congrArg (_ ++ · ++ _) hsends
  | inChannel c slot =>
    have hchannels : (st.channels.modify c fun channel => channel.setSend slot t).flatMap
        Channel.faces = st.channels.flatMap Channel.faces := by
      apply flatMap_modify
      intro channel hc
      have hsend : channel.send? slot = some s := by
        rw [← hs, send?, channel?, hc]
        rfl
      have hsends : (channel.sends.set slot t).flatMap Send.faces =
          channel.sends.flatMap Send.faces :=
        flatMap_set fun q hq => h.trans (congrArg _ (Option.some.inj (hsend.symm.trans hq)))
      exact congrArg (_ ++ ·) hsends
    exact congrArg (· ++ _ ++ _) hchannels

end Studio

end MixerRouting
