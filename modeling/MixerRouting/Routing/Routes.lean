import MixerRouting.Port.Id

/-!
# Published routes

The render side never looks at the wiring. Each port has a slot on a board;
when the graph is recalculated a fresh snapshot of the port's enabled
neighbours is put there, and render code reads only that. A slot belongs to a
port, not to its identity: whoever registers the port under an identity lends
its slot to it.
-/
namespace MixerRouting

/-- The place of one port's snapshot on the board. -/
structure RouteSlot where
  index : Nat
  deriving DecidableEq, Repr

/-- Stands for one registration of a plugin, also after the plugin was removed. -/
structure PluginHandle where
  index : Nat
  deriving DecidableEq, Repr

/-- An enabled wire as one of its ends sees it. -/
structure Route where
  /-- The port at the other end. -/
  peer : PortId
  gain : Float32
  /-- The registration of the plugin that owns the peer. -/
  plugin : Option PluginHandle
  deriving DecidableEq

structure Routes where
  sources : List Route := []
  destinations : List Route := []
  deriving DecidableEq, Inhabited

/-- The snapshot of a port that was not published yet. -/
def Routes.empty : Routes := {}

/-- The destination, if there is exactly one. -/
def Routes.soleDestination (r : Routes) : Option Route :=
  match r.destinations with
  | [only] => some only
  | _ => none

/-- All snapshots, one for each slot that was handed out. -/
structure Board where
  snapshots : List Routes := []

namespace Board

/-- Hands out a new slot with an empty snapshot. -/
def fresh (b : Board) : RouteSlot × Board :=
  (⟨b.snapshots.length⟩, ⟨b.snapshots ++ [Routes.empty]⟩)

def read (b : Board) (slot : RouteSlot) : Routes := (b.snapshots[slot.index]?).getD .empty

def post (b : Board) (slot : RouteSlot) (routes : Routes) : Board :=
  ⟨b.snapshots.set slot.index routes⟩

theorem read_post (b : Board) (slot other : RouteSlot) (routes : Routes)
    (handed_out : slot.index < b.snapshots.length) :
    (b.post slot routes).read other = if other = slot then routes else b.read other := by
  unfold post read
  by_cases h : other = slot
  · subst h
    simp [handed_out]
  · have apart : slot.index ≠ other.index := by
      intro same
      apply h
      cases other
      cases slot
      simp_all
    simp [h, List.getElem?_set_ne apart]

end Board

/-- Building ports: each port that is made takes a slot of the board. -/
abbrev Building := StateM Board

/-- Takes a new slot. -/
def takeSlot : Building RouteSlot := fun b => b.fresh

end MixerRouting
