import MixerRouting.Port.Bundle
import MixerRouting.Send.Fader

/-!
# Sends

A send taps its channel in front of or behind the fader and passes a scaled
copy on to one destination: the input of a track, or the sidechain of a
plugin. It is switched by one control port and scaled by another.

A send is empty when its switch is off and no wire leaves its outputs. It is
connected when the switch is on and exactly one wire leaves each output.
-/
namespace MixerRouting

/-- The signal ports of a send. -/
inductive SendLines where
  | audio (input output : StereoPair)
  | event (input output : EventPort)

namespace SendLines

def input : SendLines → LiveBundle
  | .audio input _ => .stereo input
  | .event input _ => .midi input

def output : SendLines → LiveBundle
  | .audio _ output => .stereo output
  | .event _ output => .midi output

def signal : SendLines → Signal
  | .audio .. => .audio
  | .event .. => .event

def clear : SendLines → SendLines
  | .audio input output => .audio input.clear output.clear
  | .event input output => .event input.clear output.clear

end SendLines

structure Send where
  track : OwnerId
  slot : UInt8
  /-- The first slot of the channel that taps the signal behind the fader. -/
  postFaderStart : Nat
  unityEpsilon : Float32
  enabled : ControlPort
  amount : ControlPort
  sidechain : Bool
  lines : SendLines

namespace Send

/-- The empty send in a slot. Labels count slots from one. -/
def create (track : OwnerId) (slot : UInt8) (signal : Signal) (settings : Settings) :
    Building Send := do
  let owner : Owner := .send track slot
  let label (part : String) : String := s!"channel_send_{slot.toNat + 1}_{part}"
  let control (index : UInt16) (flags : PortFlags) : PortId :=
    { owner, medium := .control, direction := .input, index, flags }
  let enabled ← ControlPort.create (control 0 (PortFlags.toggle.union .sendEnabled))
    (label "enabled") 0
  let amount ← ControlPort.create
    (control 1 ((PortFlags.amplitude.union .automatable).union .sendAmount)) (label "amount") 1
  let lines ← match signal with
    | .audio => do
      let input ← StereoPair.create owner .input 0 (label "audio_in") settings.blockLength
      let output ← StereoPair.create owner .output 0 (label "audio_out") settings.blockLength
      pure (SendLines.audio input output)
    | .event => do
      let line (direction : Direction) : PortId :=
        { owner, medium := .event, direction, index := 0 }
      let input ← EventPort.create (line .input) (label "midi_in") settings.eventCapacity
      let output ← EventPort.create (line .output) (label "midi_out") settings.eventCapacity
      pure (SendLines.event input output)
  return {
    track, slot, enabled, amount, lines
    postFaderStart := settings.postFaderStart
    unityEpsilon := settings.unityEpsilon
    sidechain := false }

def owner (s : Send) : Owner := .send s.track s.slot

def signal (s : Send) : Signal := s.lines.signal

/-- Whether the send taps the signal in front of the fader. -/
def isPrefader (s : Send) : Bool := s.slot.toNat < s.postFaderStart

def isOn (s : Send) : Bool := s.enabled.isOn

/-- Whether the send is on and feeds a sidechain. -/
def feedsSidechain (s : Send) : Bool := s.isOn && s.sidechain

def inputs (s : Send) : Bundle := s.lines.input.ids

def outputs (s : Send) : Bundle := s.lines.output.ids

/-- All ports: the switch, the amount, the inputs and the outputs. -/
def faces (s : Send) : List PortFace :=
  s.enabled.toPortFace :: s.amount.toPortFace :: (s.lines.input.faces ++ s.lines.output.faces)

def portIds (s : Send) : List PortId := s.faces.map PortFace.id

def primaryOutputSlot (s : Send) : RouteSlot := s.lines.output.primarySlot

/-! ### Controls -/

def setAmount (s : Send) (amount : Float32) : Send := { s with amount := s.amount.set amount }

def setEnabledValue (s : Send) (value : Float32) : Send := { s with enabled := s.enabled.set value }

def faderPosition (s : Send) : Float32 := Fader.position s.amount.value

def setFaderPosition (s : Send) (position : Float32) : Send :=
  s.setAmount (Fader.amplitude position)

/-- The send with its switch on. -/
def switchedOn (s : Send) (sidechain : Bool) : Send :=
  { s with enabled := s.enabled.switch true, sidechain }

def switchedOff (s : Send) : Send :=
  { s with enabled := s.enabled.switch false, sidechain := false }

/-- Takes over amount, switch and sidechain flag of another send. -/
def copyValues (s other : Send) : Send :=
  { s with
    amount := s.amount.set other.amount.value
    enabled := s.enabled.set other.enabled.value
    sidechain := other.sidechain }

@[simp] theorem isOn_switchedOn (s : Send) (sidechain : Bool) :
    (s.switchedOn sidechain).isOn = true := by simp [isOn, switchedOn]

@[simp] theorem isOn_switchedOff (s : Send) : s.switchedOff.isOn = false := by
  simp [isOn, switchedOff]

@[simp] theorem outputs_switchedOn (s : Send) (sidechain : Bool) :
    (s.switchedOn sidechain).outputs = s.outputs := rfl

@[simp] theorem outputs_switchedOff (s : Send) : s.switchedOff.outputs = s.outputs := rfl

end Send

end MixerRouting
