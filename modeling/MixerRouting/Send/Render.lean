import MixerRouting.Send.Observe

/-!
# Rendering a send

A cycle starts with cleared buffers. In each window the send takes over the
tapped signal and, if it takes part, passes it on: as it is when the amount
counts as one, otherwise scaled and added to the output. Nothing outside the
window changes.
-/
namespace MixerRouting.Send

/-- Clears the buffers ahead of a cycle. -/
def prepare (s : Send) : Send := { s with lines := s.lines.clear }

/-- Takes the tapped signal over into the inputs. A tap of the other signal is ignored. -/
def receive (s : Send) (tap : LiveBundle) (w : Window) : Send :=
  match s.lines, tap with
  | .audio input output, .stereo src =>
    { s with lines := .audio (input.zip (Samples.copyWindow w) src) output }
  | .event input output, .midi src =>
    { s with lines := .event (input.appendWindow w src).2 output }
  | _, _ => s

def countsAsUnity (s : Send) : Bool := Fader.near s.amount.value 1 s.unityEpsilon

/-- Passes the inputs on to the outputs. -/
def forward (s : Send) (w : Window) : Send :=
  match s.lines with
  | .audio input output =>
    let pass :=
      if s.countsAsUnity then Samples.copyWindow w else Samples.mixWindow s.amount.value w
    { s with lines := .audio input (output.zip pass input) }
  | .event input output => { s with lines := .event input (output.appendWindow w input).2 }

/-- Renders one window; nothing happens unless the send is on and its published route usable. -/
def render (s : Send) (registry : Registry) (board : Board) (w : Window) : Send :=
  if s.isOn && s.routeUsable registry board then s.forward w else s

end MixerRouting.Send
