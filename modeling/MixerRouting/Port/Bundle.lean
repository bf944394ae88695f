import MixerRouting.Port.Live
import MixerRouting.Settings.Basic

/-!
# Ports that carry one signal together

A channel carries stereo audio or events. A bundle names the ports for one
such signal, a live bundle holds them.
-/
namespace MixerRouting

inductive Signal where
  | audio
  | event
  deriving DecidableEq, Repr

namespace Signal

def text : Signal → String
  | .audio => "audio"
  | .event => "event"

def medium : Signal → Medium
  | .audio => .audio
  | .event => .event

end Signal

/-- The identities of the ports for one signal. -/
inductive Bundle where
  | stereo (left right : PortId)
  | midi (port : PortId)
  deriving DecidableEq, Repr

namespace Bundle

def signal : Bundle → Signal
  | .stereo .. => .audio
  | .midi _ => .event

/-- The ports in the order of their channels. -/
def ports : Bundle → List PortId
  | .stereo left right => [left, right]
  | .midi port => [port]

def first : Bundle → PortId
  | .stereo left _ => left
  | .midi port => port

@[simp] theorem ports_stereo (left right : PortId) :
    (Bundle.stereo left right).ports = [left, right] := rfl

@[simp] theorem ports_midi (port : PortId) : (Bundle.midi port).ports = [port] := rfl

end Bundle

inductive LiveBundle where
  | stereo (pair : StereoPair)
  | midi (port : EventPort)

namespace LiveBundle

/-- The ports for a signal, numbered from zero. -/
def create (signal : Signal) (owner : Owner) (direction : Direction) (label : String)
    (settings : Settings) : Building LiveBundle :=
  match signal with
  | .audio => do
    return .stereo (← StereoPair.create owner direction 0 label settings.blockLength)
  | .event => do
    return .midi (← EventPort.create { owner, medium := .event, direction, index := 0 } label
      settings.eventCapacity)

def signal : LiveBundle → Signal
  | .stereo _ => .audio
  | .midi _ => .event

def ids : LiveBundle → Bundle
  | .stereo pair => .stereo pair.left.id pair.right.id
  | .midi port => .midi port.id

def faces : LiveBundle → List PortFace
  | .stereo pair => pair.faces
  | .midi port => [port.toPortFace]

/-- The slot of the first port. -/
def primarySlot : LiveBundle → RouteSlot
  | .stereo pair => pair.left.slot
  | .midi port => port.slot

def clear : LiveBundle → LiveBundle
  | .stereo pair => .stereo pair.clear
  | .midi port => .midi port.clear

@[simp] theorem signal_ids (b : LiveBundle) : b.ids.signal = b.signal := by
  cases b <;> rfl

end LiveBundle

end MixerRouting
