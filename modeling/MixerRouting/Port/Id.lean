/-!
# Port identities

A port identity names one end of a possible connection without holding the
port: who owns the port, what flows through it and in which direction, its
number among the owner's ports, what it can do, and the group that a plugin
puts it in. Identities are plain values and equal only if all of this is
equal, so they serve as keys wherever ports are looked up.
-/
namespace MixerRouting

/-- The number of a track or of a plugin. -/
abbrev OwnerId := UInt32

inductive Owner where
  /-- The input of a track, where sends to the track arrive. -/
  | trackInput (track : OwnerId)
  | prefader (track : OwnerId)
  | fader (track : OwnerId)
  | send (track : OwnerId) (slot : UInt8)
  | plugin (id : OwnerId)
  /-- The engine itself, for transport and monitoring. -/
  | engine
  deriving DecidableEq, Repr

namespace Owner

/-- The track that the owner is part of. A plugin's track is not part of its name. -/
def track? : Owner → Option OwnerId
  | .trackInput track | .prefader track | .fader track | .send track _ => some track
  | .plugin _ | .engine => none

def plugin? : Owner → Option OwnerId
  | .plugin id => some id
  | _ => none

def text : Owner → String
  | .trackInput track => s!"track[{track}]"
  | .prefader track => s!"prefader[{track}]"
  | .fader track => s!"fader[{track}]"
  | .send track slot => s!"send[{track}:{slot}]"
  | .plugin id => s!"plugin[{id}]"
  | .engine => "engine"

end Owner

/-- What flows through a port. -/
inductive Medium where
  | audio
  | event
  | control
  /-- Control voltage: a control at audio rate. -/
  | cv
  deriving DecidableEq, Repr

namespace Medium

def text : Medium → String
  | .audio => "audio"
  | .event => "event"
  | .control => "control"
  | .cv => "cv"

/-- Which media a port may feed: its own kind, and control voltage also a control. -/
def feeds : Medium → Medium → Bool
  | .audio, .audio | .event, .event | .cv, .cv | .cv, .control | .control, .control => true
  | _, _ => false

end Medium

/-- The direction of the signal, seen from the owner. -/
inductive Direction where
  | input
  | output
  deriving DecidableEq, Repr

def Direction.text : Direction → String
  | .input => "in"
  | .output => "out"

/-- Roles and capabilities of a port, one bit each. -/
structure PortFlags where
  bits : UInt32
  deriving DecidableEq, Repr

namespace PortFlags

def none : PortFlags := ⟨0⟩
/-- The value is a linear amplitude. -/
def amplitude : PortFlags := ⟨1⟩
/-- The value is a switch. -/
def toggle : PortFlags := ⟨2⟩
def automatable : PortFlags := ⟨4⟩
/-- The port belongs to a plugin's sidechain group. -/
def sidechain : PortFlags := ⟨8⟩
def stereoLeft : PortFlags := ⟨16⟩
def stereoRight : PortFlags := ⟨32⟩
/-- The switch of a send. -/
def sendEnabled : PortFlags := ⟨64⟩
/-- The level control of a send. -/
def sendAmount : PortFlags := ⟨128⟩

def union (a b : PortFlags) : PortFlags := ⟨a.bits ||| b.bits⟩

/-- Whether every flag of `b` is set in `a`. -/
def contains (a b : PortFlags) : Bool := a.bits &&& b.bits = b.bits

def isEmpty (a : PortFlags) : Bool := a.bits = 0

end PortFlags

structure PortId where
  owner : Owner
  medium : Medium
  direction : Direction
  index : UInt16
  flags : PortFlags := PortFlags.none
  group : Option String := none
  deriving DecidableEq, Repr

namespace PortId

def isInput (p : PortId) : Bool := p.direction = .input

def isOutput (p : PortId) : Bool := p.direction = .output

def isSidechain (p : PortId) : Bool := p.flags.contains PortFlags.sidechain

/-- Whether an edge from `src` to `dest` makes sense: an output feeds an input of another owner
with a compatible medium. -/
def canFeed (src dest : PortId) : Bool :=
  src.isOutput && dest.isInput && src.owner ≠ dest.owner && src.medium.feeds dest.medium

def text (p : PortId) : String :=
  let group := match p.group with
    | some group => s!" [{group}]"
    | none => ""
  s!"{p.owner.text}/{p.medium.text}-{p.direction.text}{p.index}{group}"

end PortId

end MixerRouting
