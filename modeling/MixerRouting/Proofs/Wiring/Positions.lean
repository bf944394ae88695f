import Mathlib.Data.List.Basic
import MixerRouting.Proofs.Keyed
import MixerRouting.Wiring.Store

/-!
# What the indices of a wiring say

An index that was built from a list gives for each port the places that a walk
along the list would find, in ascending order. Lookups through the indices of
`ofList` are therefore walks along the list; the wire between two ports is
found at its place as soon as no two wires of the list join the same ports.
Nothing is said here about wirings that were not made by `ofList`.
-/
namespace MixerRouting

/-- The ports that a wire joins. -/
def Wire.ends (w : Wire) : PortId × PortId := (w.src, w.dest)

theorem Wire.src_of_ends {v w : Wire} (h : v.ends = w.ends) : v.src = w.src :=
  congrArg Prod.fst h

/-- The end of a wire that stands at the port whose neighbours on this side are asked for. -/
def Side.near : Side → Wire → PortId
  | .source => Wire.dest
  | .destination => Wire.src

theorem Wire.joins_iff (w : Wire) (src dest : PortId) :
    w.joins src dest = true ↔ w.ends = (src, dest) := by
  simp [Wire.joins, Wire.ends]

theorem filterMap_findIdxs_append {α : Type} (f : α → Bool) (before xs : List α) :
    (xs.findIdxs f before.length).filterMap (fun i => (before ++ xs)[i]?) = xs.filter f := by
  induction xs generalizing before with
  | nil => simp
  | cons x xs ih =>
    have hrest := ih (before ++ [x])
    simp only [List.length_append, List.length_singleton, List.append_assoc,
      List.singleton_append] at hrest
    rw [List.findIdxs_cons]
    by_cases hx : f x
    · simp [hx, hrest]
    · simp [hx, hrest]

/-- Reading a list at the places of some of its elements gives those elements. -/
theorem filterMap_findIdxs {α : Type} (f : α → Bool) (xs : List α) :
    (xs.findIdxs f).filterMap (fun i => xs[i]?) = xs.filter f :=
  filterMap_findIdxs_append f [] xs

namespace PositionIndex

theorem positions_extend (index : PositionIndex) (key : Wire → PortId) (start : Nat)
    (wires : List Wire) (p : PortId) :
    (index.extend key start wires).positions p =
      index.positions p ++ wires.findIdxs (fun w => key w = p) start := by
  induction wires generalizing index start with
  | nil => simp [extend]
  | cons w rest ih =>
    simp only [extend, ih, positions_note, List.findIdxs_cons]
    by_cases h : key w = p
    · simp [h]
    · simp [h, Ne.symm h]

theorem positions_build (key : Wire → PortId) (wires : List Wire) (p : PortId) :
    (build key wires).positions p = wires.findIdxs fun w => key w = p := by
  simp [build, positions_extend]

/-- An index depends on the keys only. -/
theorem extend_congr (index : PositionIndex) (key : Wire → PortId) (start : Nat)
    (wires wires' : List Wire) (h : wires.map key = wires'.map key) :
    index.extend key start wires = index.extend key start wires' := by
  induction wires generalizing index start wires' with
  | nil => simp_all
  | cons w rest ih =>
    cases wires' with
    | nil => simp at h
    | cons w' rest' =>
      simp only [List.map_cons, List.cons.injEq] at h
      simp only [extend, h.1]
      exact ih _ _ _ h.2

theorem build_congr {key : Wire → PortId} {wires wires' : List Wire}
    (h : wires.map key = wires'.map key) : build key wires = build key wires' :=
  extend_congr _ _ _ _ _ h

end PositionIndex

namespace Wiring

theorem positions_ofList (wires : List Wire) (p : PortId) (side : Side) :
    (ofList wires).positions p side = wires.findIdxs fun w => side.near w = p := by
  cases side <;> exact PositionIndex.positions_build _ wires p

theorem neighbours_ofList (wires : List Wire) (p : PortId) (side : Side) :
    (ofList wires).neighbours p side = wires.filter fun w => side.near w = p := by
  rw [neighbours, positions_ofList]
  exact filterMap_findIdxs _ wires

/-- Every position is a place of the list, so no wire is lost in the reading. -/
theorem count_ofList (wires : List Wire) (p : PortId) (side : Side) :
    (ofList wires).count p side = (wires.filter fun w => side.near w = p).length := by
  rw [count, positions_ofList, List.length_findIdxs, List.countP_eq_length_filter]

theorem joins_of_locate? {wires : List Wire} {src dest : PortId} {i : Nat} {w : Wire}
    (h : (ofList wires).locate? src dest = some (i, w)) :
    wires[i]? = some w ∧ w.ends = (src, dest) := by
  unfold locate? at h
  obtain ⟨j, hj, hw⟩ := List.exists_of_findSome?_eq_some h
  rw [ofList_leaving, PositionIndex.positions_build,
    List.mem_findIdxs_iff_exists_getElem_pos] at hj
  obtain ⟨hlt, hsrc⟩ := hj
  rw [ofList_wires, List.getElem?_eq_getElem hlt] at hw
  split at hw
  · next v hv =>
    split at hw
    · next hdest =>
      cases hw
      cases hv
      refine ⟨List.getElem?_eq_getElem hlt, ?_⟩
      simp [Wire.ends, hdest, of_decide_eq_true hsrc]
    · cases hw
  · cases hw

theorem locate?_isSome {wires : List Wire} {src dest : PortId} {i : Nat} {w : Wire}
    (hi : wires[i]? = some w) (hw : w.ends = (src, dest)) :
    ((ofList wires).locate? src dest).isSome := by
  obtain ⟨hlt, rfl⟩ := List.getElem?_eq_some_iff.mp hi
  obtain ⟨hsrc, hdest⟩ := Prod.mk.inj hw
  unfold locate?
  rw [List.findSome?_isSome_iff, ofList_leaving, PositionIndex.positions_build]
  refine ⟨i, ?_, ?_⟩
  · rw [List.mem_findIdxs_iff_exists_getElem_pos]
    exact ⟨hlt, decide_eq_true hsrc⟩
  · simp [hlt, hdest]

theorem locate?_eq_none_iff (wires : List Wire) (src dest : PortId) :
    (ofList wires).locate? src dest = none ↔ (src, dest) ∉ wires.map Wire.ends := by
  rw [List.mem_map]
  constructor
  · rintro h ⟨w, hw, he⟩
    obtain ⟨i, hi⟩ := List.mem_iff_getElem?.mp hw
    simpa [h] using locate?_isSome hi he
  · intro h
    by_contra hs
    obtain ⟨⟨i, w⟩, hl⟩ := Option.ne_none_iff_exists'.mp hs
    obtain ⟨hi, he⟩ := joins_of_locate? hl
    exact h ⟨w, List.mem_of_getElem? hi, he⟩

/-- With distinct pairs of ends the index finds the wire between two ports, at its place. -/
theorem locate?_eq_some_iff {wires : List Wire} (hd : (wires.map Wire.ends).Nodup)
    (src dest : PortId) (i : Nat) (w : Wire) :
    (ofList wires).locate? src dest = some (i, w) ↔
      wires[i]? = some w ∧ w.ends = (src, dest) := by
  refine ⟨joins_of_locate?, ?_⟩
  rintro ⟨hi, hw⟩
  obtain ⟨⟨j, v⟩, hl⟩ := Option.isSome_iff_exists.mp (locate?_isSome hi hw)
  obtain ⟨hj, hv⟩ := joins_of_locate? hl
  obtain rfl := Keyed.place_unique hd hi hj (hw.trans hv.symm)
  obtain rfl : w = v := Option.some.inj (hi.symm.trans hj)
  exact hl

end Wiring

end MixerRouting
