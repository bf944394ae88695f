import MixerRouting.Routing.Desk
import MixerRouting.Send.Basic
import MixerRouting.Send.Error

/-!
# Connecting and disconnecting sends

A connection is checked in full before anything changes: the target has to
carry the send's signal, the check of compatibility has to accept every pair
of ports, and every port has to resolve. Then all wires that leave the send's
outputs go, one locked wire of gain one is made per channel, and the switch is
set. A recalculation that was asked for comes last; if it fails, the
connection stands.
-/
namespace MixerRouting

/-- What an operation on a send answers, with the send and the desk as it leaves them. -/
structure SendOutcome where
  result : Except (Fault SendError) Unit
  send : Send
  desk : Desk

/-- How a send is to be connected. -/
structure ConnectOptions where
  /-- Whether the target is a sidechain; events have none. -/
  sidechain : Bool := false
  /-- Whether the graph is to be recalculated afterwards. -/
  recalc : Bool := false
  /-- Which ports may feed which; no check if there is none. -/
  accepts : Option (PortId → PortId → Bool) := none

namespace Send

/-- The wires that leave the send, output by output. -/
def wiresFrom (s : Send) (g : Wiring) : List Wire :=
  s.outputs.ports.flatMap fun p => g.neighbours p .destination

/-- Recalculates if asked, and answers. -/
def finish (s : Send) (d : Desk) (recalc : Bool) : SendOutcome :=
  if recalc then
    match d.recalc false with
    | .ok d => ⟨.ok (), s, d⟩
    | .error e => ⟨.error (e.map .lookup), s, d⟩
  else ⟨.ok (), s, d⟩

/-- Removes all wires that leave the send and switches it off. Nothing happens if it is off and
there is none. -/
def disconnect (s : Send) (recalc : Bool) (d : Desk) : SendOutcome :=
  let wires := s.wiresFrom d.wiring
  if !s.isOn && wires.isEmpty then ⟨.ok (), s, d⟩
  else
    match d.disconnectEach wires with
    | .error m => ⟨.error (.misuse m), s, d⟩
    | .ok d => s.switchedOff.finish d recalc

/-- Everything that has to hold before the send is connected to a target. -/
def checkTarget (s : Send) (target : Bundle) (accepts : Option (PortId → PortId → Bool))
    (registry : Registry) : Except SendError Unit := do
  if target.signal ≠ s.signal then throw (.mismatch s.signal target.signal)
  let pairs := s.outputs.ports.zip target.ports
  match accepts with
  | some accepts =>
    pairs.forM fun (src, dest) => if accepts src dest then pure () else throw (.rejected src dest)
  | none => pure ()
  (pairs.forM fun (src, dest) => do
    let _ ← registry.endpoint src
    let _ ← registry.endpoint dest).mapError .lookup

/-- Connects the send to a target in place of any earlier one. -/
def connect (s : Send) (target : Bundle) (options : ConnectOptions) (d : Desk) : SendOutcome :=
  match s.checkTarget target options.accepts d.registry with
  | .error e => ⟨.error (.cause e), s, d⟩
  | .ok () =>
    let cleared := s.disconnect false d
    match cleared.result with
    | .error _ => cleared
    | .ok () =>
      match cleared.desk.connectLocked (s.outputs.ports.zip target.ports) with
      | .error m => { cleared with result := .error (.misuse m) }
      | .ok d =>
        let sidechain := options.sidechain && target.signal = .audio
        (cleared.send.switchedOn sidechain).finish d options.recalc

/-- Connects the tap of the channel, in front of or behind the fader, to the send's inputs. -/
def connectToTap (s : Send) (prefader fader : Bundle) (d : Desk) :
    Except (Fault SendError) Desk :=
  let tap := if s.isPrefader then prefader else fader
  if tap.signal = s.signal then
    (d.connectLocked (tap.ports.zip s.inputs.ports)).mapError .misuse
  else .error (.cause (.mismatch s.signal tap.signal))

end Send

end MixerRouting
