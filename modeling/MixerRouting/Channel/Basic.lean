import MixerRouting.Send.Render
import MixerRouting.Send.Record

/-!
# Channels

The part of a mixer channel that has to do with sends: the taps in front of
and behind the fader, and the sends in the order of their slots.
-/
namespace MixerRouting

structure Channel where
  track : OwnerId
  signal : Signal
  prefader : LiveBundle
  fader : LiveBundle
  sends : List Send

namespace Channel

/-- A channel with empty sends, as many as the settings say but at most as many as there are
slots. -/
def create (track : OwnerId) (signal : Signal) (settings : Settings) : Building Channel := do
  let suffix := match signal with
    | .audio => "stereo_out"
    | .event => "midi_out"
  let sends ← (List.range (min settings.sendSlots Settings.maxSlots)).mapM fun slot =>
    Send.create track (UInt8.ofNat slot) signal settings
  let prefader ← LiveBundle.create signal (.prefader track) .output ("prefader_" ++ suffix)
    settings
  let fader ← LiveBundle.create signal (.fader track) .output ("fader_" ++ suffix) settings
  return { track, signal, prefader, fader, sends }

def send? (c : Channel) (slot : Nat) : Option Send := c.sends[slot]?

def setSend (c : Channel) (slot : Nat) (s : Send) : Channel :=
  { c with sends := c.sends.set slot s }

/-- All ports of the channel and its sends. -/
def faces (c : Channel) : List PortFace :=
  c.prefader.faces ++ c.fader.faces ++ c.sends.flatMap Send.faces

def portIds (c : Channel) : List PortId := c.faces.map PortFace.id

/-- The tap that feeds a send. -/
def tapOf (c : Channel) (s : Send) : LiveBundle := if s.isPrefader then c.prefader else c.fader

/-- Connects the inputs of all sends to their taps. -/
def connectSends (c : Channel) (d : Desk) : Except (Fault SendError) Desk :=
  c.sends.foldlM (fun d s => s.connectToTap c.prefader.ids c.fader.ids d) d

/-- Removes all wires of the channel's ports; answers how many went. -/
def disconnectAll (c : Channel) (d : Desk) : Except Misuse (Nat × Desk) :=
  d.disconnectPorts c.portIds

def prepare (c : Channel) : Channel := { c with sends := c.sends.map Send.prepare }

/-- Feeds every send from its tap and renders it. -/
def process (c : Channel) (registry : Registry) (board : Board) (w : Window) : Channel :=
  { c with sends := c.sends.map fun s =>
      (s.receive (c.tapOf s) w).render registry board w }

end Channel

end MixerRouting
