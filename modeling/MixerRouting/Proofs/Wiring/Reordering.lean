import MixerRouting.Proofs.Wiring.Outgoing

/-!
# Wirings with the same wires in another order

A saved wiring may be read back in any order of its wires. No question about
the wires that leave a port depends on that order: the wires there, how many
they are, the only one of them and whether there is one to some other port.
-/
namespace MixerRouting.Wiring

/-! ### Reading wires back -/

/-- Entering wires of which no two join the same ports appends them. -/
theorem foldl_enter_of_unique {old records : List Wire} (h : Unique (old ++ records)) :
    records.foldl enter old = old ++ records := by
  induction records generalizing old with
  | nil => exact (List.append_nil old).symm
  | cons w rest ih =>
    have hnew : w.ends ∉ old.map Wire.ends := by
      intro hm
      unfold Unique at h
      rw [List.map_append, List.nodup_append] at h
      exact h.2.2 w.ends hm w.ends List.mem_cons_self rfl
    rw [List.foldl_cons, enter_of_not_mem hnew, ih]
    · rw [List.append_assoc, List.singleton_append]
    · rwa [List.append_assoc, List.singleton_append]

theorem wires_restore_of_unique {records : List Wire} (h : Unique records) :
    (restore records).wires = records := by
  have hall : Unique ([] ++ records) := h
  exact foldl_enter_of_unique hall

theorem reachable_restore (records : List Wire) : (restore records).Reachable :=
  .change (.restore records) .empty nofun

/-- The wires of a wiring, read back in any order. -/
theorem Reachable.wires_restore_of_perm {g : Wiring} (h : g.Reachable) {records : List Wire}
    (hp : records.Perm g.wires) : (restore records).wires = records :=
  wires_restore_of_unique ((hp.map Wire.ends).nodup_iff.mpr h.eq_ofList.2)

/-! ### What does not depend on the order -/

section
variable {g g' : Wiring} (hp : g'.wires.Perm g.wires)
include hp

theorem outgoing_perm (p : PortId) : (g'.outgoing p).Perm (g.outgoing p) := hp.filter _

theorem isSome_find?_perm (src dest : PortId) :
    (g'.find? src dest).isSome = (g.find? src dest).isSome := by
  rw [Bool.eq_iff_iff, find?, find?, List.find?_isSome, List.find?_isSome]
  simp only [hp.mem_iff]

variable (hg : g.Reachable) (hg' : g'.Reachable)
include hg hg'

theorem count_perm (p : PortId) : g'.count p .destination = g.count p .destination := by
  rw [hg.count_destination, hg'.count_destination]
  exact (outgoing_perm hp p).length_eq

theorem single_perm (p : PortId) : g'.single p .destination = g.single p .destination := by
  have houtgoing := outgoing_perm hp p
  unfold single
  rw [hg.neighbours_destination, hg'.neighbours_destination]
  generalize g.outgoing p = found at houtgoing
  generalize g'.outgoing p = found' at houtgoing
  match found with
  | [] => rw [houtgoing.eq_nil]
  | [w] => rw [houtgoing.eq_singleton]
  | v :: w :: rest =>
    have hlength := houtgoing.length_eq
    match found' with
    | [] => cases hlength
    | [_] => cases hlength
    | _ :: _ :: _ =>
      -- Of several wires the answer tells the number only.
      exact congrArg (fun n => Except.error (LookupError.notSingle p .destination n)) hlength

end

end MixerRouting.Wiring
