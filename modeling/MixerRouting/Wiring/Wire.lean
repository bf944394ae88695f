import MixerRouting.Number.Numeral
import MixerRouting.Port.Id

/-!
# Wires

A wire carries signal from one port to another. Its ends never change; its
gain and its two switches do. A locked wire is internal routing that a user
may not remove, a disabled wire stays in place and carries nothing. The base
value is scratch memory of control modulation and not part of a saved project.
-/
namespace MixerRouting

structure Wire where
  src : PortId
  dest : PortId
  gain : Float32
  locked : Bool
  enabled : Bool
  base : Float32 := 0
  deriving DecidableEq

namespace Wire

def joins (w : Wire) (src dest : PortId) : Bool := w.src = src && w.dest = dest

def touches (w : Wire) (p : PortId) : Bool := w.src = p || w.dest = p

def update (w : Wire) (gain : Float32) (locked enabled : Bool) : Wire :=
  { w with gain, locked, enabled }

/-- Equality of all fields with gains and base values compared as numbers: the two zeros are
equal and NaN differs from itself. -/
def agrees (a b : Wire) : Bool :=
  a.src = b.src && a.dest = b.dest && a.gain == b.gain && a.locked = b.locked
    && a.enabled = b.enabled && a.base == b.base

def text (w : Wire) : String :=
  let gain := (FloatValue.ofSingle w.gain).fixed 2
  "PortConnection\x7bsrc: " ++ w.src.text ++ ", dest: " ++ w.dest.text ++ ", mult: " ++ gain
    ++ ", locked: " ++ toString w.locked ++ ", enabled: " ++ toString w.enabled ++ "\x7d"

@[simp] theorem update_src (w : Wire) (gain : Float32) (locked enabled : Bool) :
    (w.update gain locked enabled).src = w.src := rfl

@[simp] theorem update_dest (w : Wire) (gain : Float32) (locked enabled : Bool) :
    (w.update gain locked enabled).dest = w.dest := rfl

@[simp] theorem update_base (w : Wire) (gain : Float32) (locked enabled : Bool) :
    (w.update gain locked enabled).base = w.base := rfl

end Wire

end MixerRouting
