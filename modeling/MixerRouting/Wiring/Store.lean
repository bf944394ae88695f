import MixerRouting.Wiring.Error
import MixerRouting.Wiring.PositionIndex

/-!
# The wiring of a project

The wiring is the list of all wires in the order in which they were made,
with two indices: which wires leave a port and which arrive at it. Every
operation that adds, removes or moves wires ends by building both indices
anew (`ofList`), so a lookup through an index agrees with a walk along the
list. At most one wire joins a pair of ports in a given direction.
-/
namespace MixerRouting

structure Wiring where
  wires : List Wire
  leaving : PositionIndex
  arriving : PositionIndex

namespace Wiring

def ofList (wires : List Wire) : Wiring :=
  ⟨wires, .build Wire.src wires, .build Wire.dest wires⟩

def empty : Wiring := ofList []

instance : Inhabited Wiring := ⟨empty⟩

@[simp] theorem ofList_wires (wires : List Wire) : (ofList wires).wires = wires := rfl
@[simp] theorem ofList_leaving (wires : List Wire) :
    (ofList wires).leaving = .build Wire.src wires := rfl
@[simp] theorem ofList_arriving (wires : List Wire) :
    (ofList wires).arriving = .build Wire.dest wires := rfl

/-! ### Lookups -/

/-- The places of the wires on one side of a port. -/
def positions (g : Wiring) (p : PortId) : Side → List Nat
  | .source => g.arriving.positions p
  | .destination => g.leaving.positions p

/-- The wires on one side of a port, in the order of the list. -/
def neighbours (g : Wiring) (p : PortId) (side : Side) : List Wire :=
  (g.positions p side).filterMap fun i => g.wires[i]?

def count (g : Wiring) (p : PortId) (side : Side) : Nat := (g.positions p side).length

def countUnlocked (g : Wiring) (p : PortId) (side : Side) : Nat :=
  ((g.neighbours p side).filter fun w => !w.locked).length

/-- The only wire on one side of a port. -/
def single (g : Wiring) (p : PortId) (side : Side) : Except LookupError Wire :=
  match g.neighbours p side with
  | [w] => .ok w
  | found => .error (.notSingle p side found.length)

def single? (g : Wiring) (p : PortId) (side : Side) : Option Wire := (g.single p side).toOption

/-- The wire from `src` to `dest` and its place, found among the wires that leave `src`. -/
def locate? (g : Wiring) (src dest : PortId) : Option (Nat × Wire) :=
  (g.leaving.positions src).findSome? fun i =>
    match g.wires[i]? with
    | some w => if w.dest = dest then some (i, w) else none
    | none => none

/-- The wire from `src` to `dest`, found by a walk along the whole list. -/
def find? (g : Wiring) (src dest : PortId) : Option Wire := g.wires.find? fun w => w.joins src dest

def contains (g : Wiring) (w : Wire) : Bool := g.wires.any fun v => v.agrees w

/-! ### Changes

Each answers what the caller wants to know and the new wiring. -/

/-- Joins two ports. A wire that joins them already keeps its place and its base value. -/
def connect (g : Wiring) (src dest : PortId) (gain : Float32) (locked enabled : Bool) :
    Wire × Wiring :=
  match g.locate? src dest with
  | some (i, old) =>
    let w := old.update gain locked enabled
    (w, ofList (g.wires.set i w))
  | none =>
    let w : Wire := { src, dest, gain, locked, enabled }
    (w, ofList (g.wires ++ [w]))

/-- Removes the wire from `src` to `dest`; answers whether there was one. -/
def disconnect (g : Wiring) (src dest : PortId) : Bool × Wiring :=
  match g.locate? src dest with
  | some (i, _) => (true, ofList (g.wires.eraseIdx i))
  | none => (false, ofList g.wires)

/-- Removes the wires for which `doomed` holds; answers how many went. -/
def removeWhere (g : Wiring) (doomed : Wire → Bool) : Nat × Wiring :=
  let kept := g.wires.filter fun w => !doomed w
  (g.wires.length - kept.length, ofList kept)

def disconnectPort (g : Wiring) (p : PortId) : Nat × Wiring := g.removeWhere fun w => w.touches p

def disconnectPorts (g : Wiring) (ports : List PortId) : Nat × Wiring :=
  g.removeWhere fun w => ports.any w.touches

/-- Puts `after` in the place of the wire that joins the ends of `before`; another wire that joins
the ends of `after` goes. Answers whether there was a wire to replace. -/
def replace (g : Wiring) (before after : Wire) : Bool × Wiring :=
  match g.locate? before.src before.dest with
  | none => (false, ofList g.wires)
  | some (i, _) =>
    let wires := g.wires.set i after
    match g.locate? after.src after.dest with
    | some (j, _) => (true, ofList (if j = i then wires else wires.eraseIdx j))
    | none => (true, ofList wires)

/-- Takes over all wires of another wiring, or none. -/
def reset (other : Option Wiring) : Wiring := ofList ((other.map Wiring.wires).getD [])

/-- Enters a saved wire: it replaces the wire that joins its ends, or comes last. -/
def enter (wires : List Wire) (w : Wire) : List Wire :=
  match wires.findIdx? fun v => v.joins w.src w.dest with
  | some i => wires.set i w
  | none => wires ++ [w]

/-- The wiring of saved wires; of several between the same ports the last one counts. -/
def restore (records : List Wire) : Wiring := ofList (records.foldl enter [])

def reindex (g : Wiring) : Wiring := ofList g.wires

/-- Sets the base value of a wire; answers whether there is one. No wire moves, so the indices
stay as they are. -/
def setBase (g : Wiring) (src dest : PortId) (value : Float32) : Bool × Wiring :=
  match g.locate? src dest with
  | some (i, w) => (true, { g with wires := g.wires.set i { w with base := value } })
  | none => (false, g)

/-- One line for the number of wires and one for each wire. -/
def text (g : Wiring) : String :=
  let lines := g.wires.zipIdx.map fun (w, i) => s!"[{i}] {w.text}\n"
  s!"Port connections ({g.wires.length}):\n" ++ String.join lines

end Wiring

end MixerRouting
