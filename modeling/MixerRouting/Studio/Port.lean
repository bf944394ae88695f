import MixerRouting.Port.Live

/-!
# Ports of any kind

A port that stands on its own, outside of channels: audio, a stereo pair,
events or a control.
-/
namespace MixerRouting

inductive LivePort where
  | audio (port : AudioPort)
  | stereo (pair : StereoPair)
  | midi (port : EventPort)
  | control (port : ControlPort)

namespace LivePort

def faces : LivePort → List PortFace
  | .audio port => [port.toPortFace]
  | .stereo pair => pair.faces
  | .midi port => [port.toPortFace]
  | .control port => [port.toPortFace]

/-- The slot of the port, of the left one in a pair. -/
def slot : LivePort → RouteSlot
  | .audio port => port.slot
  | .stereo pair => pair.left.slot
  | .midi port => port.slot
  | .control port => port.slot

/-- Resets what lasts for one block; a control keeps its value. -/
def clear : LivePort → LivePort
  | .audio port => .audio port.clear
  | .stereo pair => .stereo pair.clear
  | .midi port => .midi port.clear
  | .control port => .control port

/-- Overwrites the first samples. -/
def fill (left right : List Float32) : LivePort → LivePort
  | .audio port => .audio { port with samples := port.samples.fill left }
  | .stereo pair => .stereo (pair.fill left right)
  | p => p

/-- Applies an operation on the samples of two ports of the same shape. -/
def zip (f : Samples → Samples → Samples) (dst src : LivePort) : LivePort :=
  match dst, src with
  | .audio dst, .audio src => .audio { dst with samples := f dst.samples src.samples }
  | .stereo dst, .stereo src => .stereo (dst.zip f src)
  | dst, _ => dst

end LivePort

end MixerRouting
