import MixerRouting.Persist.Ports
import MixerRouting.Wiring.Store

/-!
# Saved wires

The JSON form of wires and of a whole wiring. Gain and switches may be missing
from a wire; the base value is not part of its form.
-/
namespace MixerRouting

variable (c : JsonCodec)

namespace Wire

def toJson (w : Wire) : JsonValue :=
  .record [("src", w.src.toJson), ("dest", w.dest.toJson),
    ("multiplier", c.ofSingle w.gain), ("locked", .bool w.locked), ("enabled", .bool w.enabled)]

def gainOfJson? : Option JsonValue → Option Float32
  | none => some 1
  | some v => c.single? v

def switchOfJson? (default : Bool) : Option JsonValue → Option Bool
  | none => some default
  | some v => c.bool? v

def ofJson? (v : JsonValue) : Option Wire :=
  match c.fields? ["src", "dest", "multiplier", "locked", "enabled"] v with
  | some [some src, some dest, gain, locked, enabled] => do
    return {
      src := ← PortId.ofJson? c src
      dest := ← PortId.ofJson? c dest
      gain := ← gainOfJson? c gain
      locked := ← switchOfJson? c false locked
      enabled := ← switchOfJson? c true enabled }
  | _ => none

/-- The wires of a saved project. -/
def listOfJson? : JsonValue → Option (List Wire)
  | .array items => items.mapM (ofJson? c)
  | _ => none

end Wire

def Wiring.toJson (g : Wiring) : JsonValue := .array (g.wires.map (Wire.toJson c))

end MixerRouting
