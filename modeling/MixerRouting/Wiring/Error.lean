import MixerRouting.Port.Id

/-!
# Failed lookups

What can be wrong when a port, a track, a plugin or the one neighbour of a
port is looked up.
-/
namespace MixerRouting

/-- The end of a port's wires that a lookup walks to. -/
inductive Side where
  /-- Wires that arrive at the port. -/
  | source
  /-- Wires that leave the port. -/
  | destination
  deriving DecidableEq, Repr

def Side.text : Side → String
  | .source => "source"
  | .destination => "destination"

inductive LookupError where
  | missingPort (port : PortId)
  | missingTrack (track : OwnerId)
  | missingPlugin (plugin : OwnerId)
  /-- One neighbour was expected and another number found. -/
  | notSingle (port : PortId) (side : Side) (found : Nat)
  deriving DecidableEq, Repr

def LookupError.message : LookupError → String
  | .missingPort port => s!"port not registered: {port.text}"
  | .missingTrack track => s!"track not registered: {track}"
  | .missingPlugin plugin => s!"plugin not registered: {plugin}"
  | .notSingle port side found =>
    s!"expected 1 {side.text} for {port.text}, found {found} connections"

end MixerRouting
