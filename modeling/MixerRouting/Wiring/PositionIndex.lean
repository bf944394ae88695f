import MixerRouting.Table
import MixerRouting.Wiring.Wire

/-!
# Positions by port

An index answers at which places of a list of wires a port stands at one end.
It is built from the whole list; the places come in ascending order.
-/
namespace MixerRouting

structure PositionIndex where
  places : Table PortId (List Nat)

namespace PositionIndex

def empty : PositionIndex := ⟨∅⟩

/-- Notes one wire, with its end `key`, at the place `position`. -/
def note (index : PositionIndex) (key : PortId) (position : Nat) : PositionIndex :=
  ⟨index.places.update key fun known => known.getD [] ++ [position]⟩

/-- The index of a list whose first wire stands at the place `start`. -/
def extend (index : PositionIndex) (key : Wire → PortId) : Nat → List Wire → PositionIndex
  | _, [] => index
  | start, w :: rest => (index.note (key w) start).extend key (start + 1) rest

def build (key : Wire → PortId) (wires : List Wire) : PositionIndex := empty.extend key 0 wires

def positions (index : PositionIndex) (p : PortId) : List Nat := (index.places.get? p).getD []

@[simp] theorem positions_empty (p : PortId) : empty.positions p = [] := rfl

theorem positions_note (index : PositionIndex) (key : PortId) (position : Nat) (p : PortId) :
    (index.note key position).positions p =
      if p = key then index.positions p ++ [position] else index.positions p := by
  unfold note positions Table.update
  rw [Table.get?_insert]
  by_cases h : p = key
  · subst h
    simp
  · simp [h]

end PositionIndex

end MixerRouting
