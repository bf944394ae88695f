import MixerRouting.Proofs.Wiring.Refinement

/-!
# Lookups are walks along the wires

In a wiring that changes led to, every question that is answered through an
index has the answer of a walk along the list of wires, at every port and on
both sides of it. A change of a base value leaves the indices alone and may,
since it moves no wire.
-/
namespace MixerRouting.Wiring

theorem ascending_positions (wires : List Wire) (p : PortId) (side : Side) :
    ((ofList wires).positions p side).Pairwise (· < ·) := by
  rw [positions_ofList]
  exact List.pairwise_findIdxs

theorem mem_positions_iff (wires : List Wire) (p : PortId) (side : Side) (i : Nat) :
    i ∈ (ofList wires).positions p side ↔ ∃ w, wires[i]? = some w ∧ side.near w = p := by
  rw [positions_ofList, List.mem_findIdxs_iff_exists_getElem_pos]
  constructor
  · rintro ⟨hi, hp⟩
    exact ⟨_, List.getElem?_eq_getElem hi, of_decide_eq_true hp⟩
  · rintro ⟨w, hw, hp⟩
    obtain ⟨hi, rfl⟩ := List.getElem?_eq_some_iff.mp hw
    exact ⟨hi, decide_eq_true hp⟩

theorem countUnlocked_ofList (wires : List Wire) (p : PortId) (side : Side) :
    (ofList wires).countUnlocked p side =
      (wires.filter fun w => side.near w = p).countP fun w => !w.locked := by
  rw [countUnlocked, neighbours_ofList, List.countP_eq_length_filter]

theorem single_eq_ok_iff (wires : List Wire) (p : PortId) (side : Side) (w : Wire) :
    (ofList wires).single p side = .ok w ↔ (wires.filter fun w => side.near w = p) = [w] := by
  rw [single, neighbours_ofList]
  split
  · next v hv => simp [hv]
  · next found hn =>
    constructor
    · intro h
      cases h
    · intro h
      exact absurd h (hn w)

/-- A lookup that does not find one wire tells how many there are. -/
theorem single_eq_error_iff (wires : List Wire) (p : PortId) (side : Side) (e : LookupError) :
    (ofList wires).single p side = .error e ↔
      (ofList wires).count p side ≠ 1 ∧ e = .notSingle p side ((ofList wires).count p side) := by
  rw [single, neighbours_ofList, count_ofList]
  split
  · next v hv => simp [hv]
  · next found hn =>
    have hl : (wires.filter fun w => side.near w = p).length ≠ 1 := by
      intro h
      obtain ⟨w, hw⟩ := List.length_eq_one_iff.mp h
      exact hn w hw
    rw [Except.error.injEq]
    exact ⟨fun h => ⟨hl, h.symm⟩, fun h => h.2.symm⟩

/-- The lookup of the edits and the walk along all wires find the same. -/
theorem locate?_map_snd {wires : List Wire} (hd : Unique wires) (src dest : PortId) :
    ((ofList wires).locate? src dest).map Prod.snd = (ofList wires).find? src dest := by
  cases hl : (ofList wires).locate? src dest with
  | none =>
    have hn := (locate?_eq_none_iff wires src dest).mp hl
    refine (List.find?_eq_none.mpr ?_).symm
    intro w hw hj
    exact ends_ne hn hw ((w.joins_iff src dest).mp hj)
  | some place =>
    obtain ⟨i, w⟩ := place
    obtain ⟨hi, he⟩ := joins_of_locate? hl
    exact ((find?_joins_eq_some_iff hd src dest w).mpr ⟨List.mem_of_getElem? hi, he⟩).symm

/-- A wiring that changes led to consists of its wires and of the indices that they have. -/
theorem Reachable.eq_ofList {g : Wiring} (h : g.Reachable) :
    g = ofList g.wires ∧ Unique g.wires := by
  obtain ⟨t, rfl⟩ := h.refines
  exact ⟨rfl, t.unique_wires⟩

/-- At every port, on both sides of it, all lookups of a reachable wiring answer as a walk along its
wires: the positions in ascending order and within the list, the neighbours in its order, their
number and the number of unlocked ones, the only neighbour or how many there are instead, and
the wire between two ports with its place. -/
theorem Reachable.lookups_eq_walks {g : Wiring} (h : g.Reachable) (p : PortId) (side : Side) :
    let found := g.wires.filter fun w => side.near w = p
    (g.positions p side).Pairwise (· < ·) ∧
      (∀ i, i ∈ g.positions p side ↔ ∃ w, g.wires[i]? = some w ∧ side.near w = p) ∧
      g.neighbours p side = found ∧
      g.count p side = found.length ∧
      g.countUnlocked p side = found.countP (fun w => !w.locked) ∧
      (∀ w, g.single p side = .ok w ↔ found = [w]) ∧
      (∀ e, g.single p side = .error e ↔
        found.length ≠ 1 ∧ e = .notSingle p side found.length) ∧
      ∀ src dest, (g.locate? src dest).map Prod.snd = g.find? src dest ∧
        ∀ i w, g.locate? src dest = some (i, w) ↔
          g.wires[i]? = some w ∧ w.src = src ∧ w.dest = dest := by
  obtain ⟨hg, hd⟩ := h.eq_ofList
  rw [hg]
  intro found
  have hcount : (ofList g.wires).count p side = found.length := count_ofList g.wires p side
  refine ⟨ascending_positions g.wires p side, mem_positions_iff g.wires p side,
    neighbours_ofList g.wires p side, hcount, ?_, single_eq_ok_iff g.wires p side, ?_, ?_⟩
  · exact countUnlocked_ofList g.wires p side
  · intro e
    rw [← hcount]
    exact single_eq_error_iff g.wires p side e
  · intro src dest
    refine ⟨locate?_map_snd hd src dest, ?_⟩
    intro i w
    rw [locate?_eq_some_iff hd, Wire.ends, Prod.mk.injEq]
    rfl

/-- A base value is set after the wire in front was replaced by one with another source. -/
theorem Reachable.lookups_eq_walks_of_moved :
    let a : PortId := ⟨.fader 1, .audio, .output, 0, .none, none⟩
    let b : PortId := ⟨.fader 2, .audio, .output, 0, .none, none⟩
    let c : PortId := ⟨.trackInput 3, .audio, .input, 0, .none, none⟩
    let script : List (Change Wiring) :=
      [.connect a c 1 false true, .connect b c 1 true true,
        .replace ⟨a, c, 1, false, true, 0⟩ ⟨c, c, 1, false, true, 0⟩, .setBase b c 2]
    let g : Wiring := script.foldl (fun g c => (g.apply c).2) .empty
    g.Reachable ∧ g.neighbours c .source = [⟨c, c, 1, false, true, 0⟩, ⟨b, c, 1, true, true, 2⟩] ∧
      g.single a .destination = .error (.notSingle a .destination 0) ∧
      g.single c .destination = .ok ⟨c, c, 1, false, true, 0⟩ := by
  intro a b c script g
  have hg : g.Reachable := by
    refine .change (.setBase b c 2) (.change (.replace _ _) (.change (.connect b c 1 true true)
      (.change (.connect a c 1 false true) .empty ?_) ?_) ?_) ?_ <;> exact nofun
  have hw : g.wires = [⟨c, c, 1, false, true, 0⟩, ⟨b, c, 1, true, true, 2⟩] := by decide +kernel
  obtain ⟨-, -, hn, -⟩ := hg.lookups_eq_walks c .source
  obtain ⟨-, -, -, -, -, -, he, -⟩ := hg.lookups_eq_walks a .destination
  obtain ⟨-, -, -, -, -, hs, -, -⟩ := hg.lookups_eq_walks c .destination
  rw [hw] at hn he hs
  exact ⟨hg, hn, (he _).mpr ⟨by decide, rfl⟩, (hs _).mpr rfl⟩

end MixerRouting.Wiring
