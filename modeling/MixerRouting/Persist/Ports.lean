import MixerRouting.Json.Codec
import MixerRouting.Port.Bundle

/-!
# Saved identities

The JSON form of port identities and bundles, as a writer and a reader for
each type. An owner is an object with its kind as the only field, except for
the engine, which is a string. The flags of an identity may be missing and
then are none; its group is written only if there is one. Readers look at
values through the library that read them.
-/
namespace MixerRouting

variable (c : JsonCodec)

namespace Owner

def toJson : Owner → JsonValue
  | .trackInput track => .tagged "TrackProcessor" (.ofNat track.toNat)
  | .prefader track => .tagged "Prefader" (.ofNat track.toNat)
  | .fader track => .tagged "Fader" (.ofNat track.toNat)
  | .send track slot =>
    .tagged "ChannelSend" (.record [("track", .ofNat track.toNat), ("slot", .ofNat slot.toNat)])
  | .plugin id => .tagged "Plugin" (.ofNat id.toNat)
  | .engine => .ofString "Engine"

def idOfJson? (v : JsonValue) : Option OwnerId := (c.nat? (UInt32.size - 1) v).map UInt32.ofNat

def slotOfJson? (v : JsonValue) : Option UInt8 := (c.nat? (UInt8.size - 1) v).map UInt8.ofNat

def ofJson? (v : JsonValue) : Option Owner :=
  match c.variant? v with
  | some ("TrackProcessor", some v) => (idOfJson? c v).map .trackInput
  | some ("Prefader", some v) => (idOfJson? c v).map .prefader
  | some ("Fader", some v) => (idOfJson? c v).map .fader
  | some ("ChannelSend", some v) =>
    match c.fields? ["track", "slot"] v with
    | some [some track, some slot] => do
      return .send (← idOfJson? c track) (← slotOfJson? c slot)
    | _ => none
  | some ("Plugin", some v) => (idOfJson? c v).map .plugin
  | _ => if c.unit? v = some "Engine" then some .engine else none

end Owner

namespace Medium

def toJson : Medium → JsonValue
  | .audio => .ofString "Audio"
  | .event => .ofString "Event"
  | .control => .ofString "Control"
  | .cv => .ofString "Cv"

def ofJson? (v : JsonValue) : Option Medium :=
  match c.unit? v with
  | some "Audio" => some .audio
  | some "Event" => some .event
  | some "Control" => some .control
  | some "Cv" => some .cv
  | _ => none

end Medium

namespace Direction

def toJson : Direction → JsonValue
  | .input => .ofString "Input"
  | .output => .ofString "Output"

def ofJson? (v : JsonValue) : Option Direction :=
  match c.unit? v with
  | some "Input" => some .input
  | some "Output" => some .output
  | _ => none

end Direction

namespace PortId

def toJson (p : PortId) : JsonValue :=
  .record ([("owner", p.owner.toJson), ("port_type", p.medium.toJson),
      ("flow", p.direction.toJson), ("index", .ofNat p.index.toNat),
      ("flags", .ofNat p.flags.bits.toNat)]
    ++ match p.group with
      | some group => [("port_group", .ofString group)]
      | none => [])

def indexOfJson? (v : JsonValue) : Option UInt16 := (c.nat? (UInt16.size - 1) v).map UInt16.ofNat

def flagsOfJson? : Option JsonValue → Option PortFlags
  | none => some .none
  | some v => (c.nat? (UInt32.size - 1) v).map fun bits => ⟨UInt32.ofNat bits⟩

def groupOfJson? : Option JsonValue → Option (Option String)
  | none => some none
  | some v => c.optionalString? v

def ofJson? (v : JsonValue) : Option PortId :=
  match c.fields? ["owner", "port_type", "flow", "index", "flags", "port_group"] v with
  | some [some owner, some medium, some direction, some index, flags, group] => do
    return {
      owner := ← Owner.ofJson? c owner
      medium := ← Medium.ofJson? c medium
      direction := ← Direction.ofJson? c direction
      index := ← indexOfJson? c index
      flags := ← flagsOfJson? c flags
      group := ← groupOfJson? c group }
  | _ => none

end PortId

namespace Bundle

def toJson : Bundle → JsonValue
  | .stereo left right => .tagged "Stereo" (.record [("l", left.toJson), ("r", right.toJson)])
  | .midi port => .tagged "Midi" port.toJson

def ofJson? (v : JsonValue) : Option Bundle :=
  match c.variant? v with
  | some ("Stereo", some v) =>
    match c.fields? ["l", "r"] v with
    | some [some left, some right] => do
      return .stereo (← PortId.ofJson? c left) (← PortId.ofJson? c right)
    | _ => none
  | some ("Midi", some v) => (PortId.ofJson? c v).map .midi
  | _ => none

end Bundle

end MixerRouting
