import MixerRouting.Routing.Fault
import MixerRouting.Routing.Registry
import MixerRouting.Wiring.Store

/-!
# The desk: changing the wiring and publishing it

A desk is all that an operation on the wiring may read or change: the wiring,
the registry, the board of published routes, the count of recalculations and
the mark of the render thread. On the render thread every change is refused
before it starts; since no change removes the mark, an operation on the desk
either succeeds or leaves it as it was, and its type says so.
-/
namespace MixerRouting

/-- How often the graph was recalculated. -/
structure Recalcs where
  hard : Nat := 0
  soft : Nat := 0
  deriving DecidableEq, Repr

structure Desk where
  rendering : Bool
  wiring : Wiring
  registry : Registry
  board : Board
  recalcs : Recalcs

namespace Wiring

/-- The route along a wire, seen from its other end. -/
def routeTo (registry : Registry) (peer : PortId) (w : Wire) : Route :=
  ⟨peer, w.gain, registry.hostOf peer⟩

/-- The enabled neighbours of a port. -/
def routesOf (g : Wiring) (registry : Registry) (p : PortId) : Routes where
  sources := ((g.neighbours p .source).filter Wire.enabled).map fun w =>
    routeTo registry w.src w
  destinations := ((g.neighbours p .destination).filter Wire.enabled).map fun w =>
    routeTo registry w.dest w

/-- The board with a fresh snapshot in the slot of every registered port. -/
def published (g : Wiring) (registry : Registry) (board : Board) : Board :=
  registry.ports.entries.foldl
    (fun board entry => board.post entry.2.slot (g.routesOf registry entry.1)) board

/-- Checks that both ends of every wire resolve, in the order of the wires. -/
def verify (g : Wiring) (registry : Registry) : Except LookupError Unit :=
  g.wires.forM fun w => do
    let _ ← registry.endpoint w.src
    let _ ← registry.endpoint w.dest

end Wiring

namespace Desk

/-- Refuses a change of the topology on the render thread. This is the build with debug assertions;
a build without them reports the change and goes on with it. -/
def guardControl (d : Desk) (change : TopologyChange) : Except Misuse Unit :=
  if d.rendering then .error (.whileRendering change) else .ok ()

/-- Applies a change of the wiring. -/
def edit {α : Type} (d : Desk) (change : TopologyChange) (f : Wiring → α × Wiring) :
    Except Misuse (α × Desk) := do
  d.guardControl change
  let (answer, wiring) := f d.wiring
  return (answer, { d with wiring })

def connect (d : Desk) (src dest : PortId) (gain : Float32) (locked enabled : Bool) :
    Except Misuse (Wire × Desk) :=
  d.edit .connect fun g => g.connect src dest gain locked enabled

def disconnect (d : Desk) (src dest : PortId) : Except Misuse (Bool × Desk) :=
  d.edit .disconnect fun g => g.disconnect src dest

def disconnectPort (d : Desk) (p : PortId) : Except Misuse (Nat × Desk) :=
  d.edit .disconnectPort fun g => g.disconnectPort p

def disconnectPorts (d : Desk) (ports : List PortId) : Except Misuse (Nat × Desk) :=
  d.edit .disconnectPorts fun g => g.disconnectPorts ports

def replace (d : Desk) (before after : Wire) : Except Misuse (Bool × Desk) :=
  d.edit .replace fun g => g.replace before after

def reset (d : Desk) (other : Option Wiring) : Except Misuse (Unit × Desk) :=
  d.edit .reset fun _ => ((), Wiring.reset other)

def restore (d : Desk) (records : List Wire) : Except Misuse (Unit × Desk) :=
  d.edit .restore fun _ => ((), Wiring.restore records)

def reindex (d : Desk) : Except Misuse (Unit × Desk) :=
  d.edit .reindex fun g => ((), g.reindex)

def setBase (d : Desk) (src dest : PortId) (value : Float32) : Except Misuse (Bool × Desk) :=
  d.edit .setBase fun g => g.setBase src dest value

/-- Publishes the routes of all registered ports; answers how many there are. -/
def publish (d : Desk) : Except Misuse (Nat × Desk) := do
  d.guardControl .publish
  return (d.registry.portCount,
    { d with board := d.wiring.published d.registry d.board })

/-- Recalculates the graph: every wire has to resolve, then the routes are published. A soft
recalculation is one that reorders nothing; the two kinds are counted apart. -/
def recalc (d : Desk) (soft : Bool) : Except (Fault LookupError) Desk :=
  match d.wiring.verify d.registry with
  | .error e => .error (.cause e)
  | .ok () =>
    match d.publish with
    | .error m => .error (.misuse m)
    | .ok (_, d) =>
      let recalcs :=
        if soft then { d.recalcs with soft := d.recalcs.soft + 1 }
        else { d.recalcs with hard := d.recalcs.hard + 1 }
      .ok { d with recalcs }

/-- Connects pairs of ports one after the other with locked wires of gain one. -/
def connectLocked (d : Desk) (pairs : List (PortId × PortId)) : Except Misuse Desk :=
  pairs.foldlM (fun d pair => do
    let (_, d) ← d.connect pair.1 pair.2 1 true true
    return d) d

/-- Removes wires one after the other. -/
def disconnectEach (d : Desk) (wires : List Wire) : Except Misuse Desk :=
  wires.foldlM (fun d w => do
    let (_, d) ← d.disconnect w.src w.dest
    return d) d

end Desk

end MixerRouting
