import Mathlib.Logic.Function.Basic
import MixerRouting.Routing.Desk

/-!
# Changes and the wirings they lead to

All ways to change a wiring as values, with their answers as values, so that a
run is a list. A reset takes over another wiring; how that one is named is left
to the parameter of the type, and a run names wirings by their numbers.

`Desk.perform` calls the operations of the desk, with the check of the render
thread that each of them makes first; `Wiring.apply` calls the operations below
them. On the control thread the two say the same. A wiring is reachable if
changes lead to it from the empty one, where a reset may take over any wiring
that is reachable itself.
-/
namespace MixerRouting

/-- A sequence that succeeds has succeeded step by step. -/
theorem exists_of_bind_eq_ok {ε α β : Type} {x : Except ε α} {f : α → Except ε β} {b : β}
    (h : (x >>= f) = .ok b) : ∃ a, x = .ok a ∧ f a = .ok b := by
  cases x with
  | error e => cases h
  | ok a => exact ⟨a, rfl, h⟩

inductive Change (ρ : Type) where
  | connect (src dest : PortId) (gain : Float32) (locked enabled : Bool)
  | disconnect (src dest : PortId)
  | disconnectPort (p : PortId)
  | disconnectPorts (ports : List PortId)
  | replace (before after : Wire)
  | reset (other : Option ρ)
  | restore (records : List Wire)
  | reindex
  | setBase (src dest : PortId) (value : Float32)

inductive Answer where
  /-- The wire as it is now. -/
  | wire (w : Wire)
  /-- Whether there was a wire to change. -/
  | found (b : Bool)
  /-- How many wires went. -/
  | removed (n : Nat)
  | done
  deriving DecidableEq

namespace Change
variable {ρ σ : Type}

def map (f : ρ → σ) : Change ρ → Change σ
  | .connect src dest gain locked enabled => .connect src dest gain locked enabled
  | .disconnect src dest => .disconnect src dest
  | .disconnectPort p => .disconnectPort p
  | .disconnectPorts ports => .disconnectPorts ports
  | .replace before after => .replace before after
  | .reset other => .reset (other.map f)
  | .restore records => .restore records
  | .reindex => .reindex
  | .setBase src dest value => .setBase src dest value

theorem map_id (c : Change ρ) : c.map id = c := by
  cases c <;> simp [map]

/-- What the change takes over. -/
def source? : Change ρ → Option ρ
  | .reset other => other
  | _ => none

end Change

def Wiring.apply (g : Wiring) : Change Wiring → Answer × Wiring
  | .connect src dest gain locked enabled =>
    (g.connect src dest gain locked enabled).map .wire id
  | .disconnect src dest => (g.disconnect src dest).map .found id
  | .disconnectPort p => (g.disconnectPort p).map .removed id
  | .disconnectPorts ports => (g.disconnectPorts ports).map .removed id
  | .replace before after => (g.replace before after).map .found id
  | .reset other => (.done, Wiring.reset other)
  | .restore records => (.done, Wiring.restore records)
  | .reindex => (.done, g.reindex)
  | .setBase src dest value => (g.setBase src dest value).map .found id

namespace Desk

def perform (d : Desk) : Change Wiring → Except Misuse (Answer × Desk)
  | .connect src dest gain locked enabled =>
    (d.connect src dest gain locked enabled).map (Prod.map .wire id)
  | .disconnect src dest => (d.disconnect src dest).map (Prod.map .found id)
  | .disconnectPort p => (d.disconnectPort p).map (Prod.map .removed id)
  | .disconnectPorts ports => (d.disconnectPorts ports).map (Prod.map .removed id)
  | .replace before after => (d.replace before after).map (Prod.map .found id)
  | .reset other => (d.reset other).map (Prod.map (fun _ => .done) id)
  | .restore records => (d.restore records).map (Prod.map (fun _ => .done) id)
  | .reindex => d.reindex.map (Prod.map (fun _ => .done) id)
  | .setBase src dest value => (d.setBase src dest value).map (Prod.map .found id)

theorem edit_of_control {α : Type} {d : Desk} (hc : d.rendering = false) (change : TopologyChange)
    (f : Wiring → α × Wiring) :
    d.edit change f = .ok ((f d.wiring).1, { d with wiring := (f d.wiring).2 }) := by
  simp only [edit, guardControl, hc]
  rfl

/-- On the control thread a change succeeds and changes the wiring only. -/
theorem perform_of_control {d : Desk} (hc : d.rendering = false) (c : Change Wiring) :
    d.perform c =
      .ok ((d.wiring.apply c).1, { d with wiring := (d.wiring.apply c).2 }) := by
  cases c <;>
    simp only [perform, connect, disconnect, disconnectPort, disconnectPorts, replace, reset,
      restore, reindex, setBase, edit_of_control hc] <;>
    rfl

/-- A recalculation that succeeds changes the board and the count only. -/
theorem recalc_eq_ok {d d' : Desk} {soft : Bool} (h : d.recalc soft = .ok d') :
    d.rendering = false ∧ d.wiring.verify d.registry = .ok () ∧
      ∃ recalcs, d' = { d with board := d.wiring.published d.registry d.board, recalcs } := by
  unfold recalc at h
  cases hv : d.wiring.verify d.registry with
  | error e =>
    rw [hv] at h
    cases h
  | ok =>
    rw [hv] at h
    cases hc : d.rendering with
    | true =>
      simp only [publish, guardControl, hc, bind, Except.bind, if_true] at h
      cases h
    | false =>
      simp only [publish, guardControl, hc] at h
      cases h
      exact ⟨rfl, rfl, _, rfl⟩

end Desk

/-- The wirings that changes lead to. -/
inductive Wiring.Reachable : Wiring → Prop
  | empty : Reachable .empty
  | change {g : Wiring} (c : Change Wiring) :
      Reachable g → (∀ other, c.source? = some other → Reachable other) → Reachable (g.apply c).2

end MixerRouting
