import MixerRouting.Send.Connect

/-!
# What can be asked of a send

Whether it takes part, where it leads, and whether its wires are as they
should be. Render code and control code ask the first question of different
sources: the published routes, and the wiring with the registry.
-/
namespace MixerRouting.Send

/-- Whether the published routes lead to exactly one usable port. -/
def routeUsable (s : Send) (registry : Registry) (board : Board) : Bool :=
  match (board.read s.primaryOutputSlot).soleDestination with
  | some route => registry.usable route
  | none => false

/-- Whether exactly one wire leaves the first output and leads to a port whose plugin, if it has
one, is registered and has not failed. -/
def wireUsable (s : Send) (g : Wiring) (registry : Registry) : Bool :=
  match g.single? s.outputs.first .destination with
  | some w =>
    match w.dest.owner.plugin? with
    | some id =>
      match registry.plugin? id with
      | some plugin => !plugin.failed
      | none => false
    | none => true
  | none => false

/-- Whether the send is on and its destination takes part. -/
def isActive (s : Send) (d : Desk) : Bool :=
  s.isOn && if d.rendering then s.routeUsable d.registry d.board
    else s.wireUsable d.wiring d.registry

/-- The destination in words. -/
def destinationName (s : Send) (g : Wiring) (registry : Registry) : Except LookupError String := do
  if !s.isOn then return if s.isPrefader then "Pre-fader send" else "Post-fader send"
  let dest := (← g.single s.outputs.first .destination).dest
  match dest.owner, s.sidechain with
  | .plugin id, true =>
    let group ← match dest.group with
      | some group => pure group
      | none => RegisteredPort.label <$> registry.port dest
    registry.designation id group
  | .trackInput track, _ => return (← registry.track track) ++ " input"
  | _, _ => RegisteredPort.label <$> registry.port dest

/-- The track that the send feeds, or that hosts the plugin it feeds; none for an empty send. -/
def targetTrack (s : Send) (g : Wiring) (registry : Registry) :
    Except LookupError (Option OwnerId) := do
  if !s.isOn then return none
  return registry.trackOf (← g.single s.outputs.first .destination).dest

/-- The pair of sidechain ports that the send feeds. -/
def targetSidechain (s : Send) (g : Wiring) : Option Bundle :=
  if s.feedsSidechain then
    match s.outputs with
    | .stereo left right => do
      return .stereo (← g.single? left .destination).dest (← g.single? right .destination).dest
    | .midi _ => none
  else none

/-- The wires that leave the send; none for a send that is off. -/
def connections (s : Send) (g : Wiring) : List Wire := if s.isOn then s.wiresFrom g else []

/-- Whether the send is on and a wire leads from each output to its port of the target. -/
def isConnectedTo (s : Send) (g : Wiring) (target : Bundle) : Bool :=
  s.isOn && s.signal = target.signal
    && (s.outputs.ports.zip target.ports).all fun (src, dest) => (g.find? src dest).isSome

/-- Whether the send is off or has one wire at each output. -/
def isSound (s : Send) (g : Wiring) : Bool :=
  !s.isOn || s.outputs.ports.all fun p => g.count p .destination = 1

end MixerRouting.Send
