import Mathlib.Data.List.Induction
import MixerRouting.Proofs.Wiring.Reordering

/-!
# Wires from saved records

Saved records may name a pair of ports more than once. Reading them gives every
pair one wire: it stands where the pair appeared first and is what its last
record says. Whatever wires were there before make no difference, and reading
the same records again changes nothing. The order of the records decides the
order of the wires and, for a pair with several records, which one is the last;
it decides nothing else.
-/
namespace MixerRouting

section
variable {α : Type} [BEq α] [LawfulBEq α] {xs : List α} {x : α}

theorem eraseDups_concat_of_mem (h : x ∈ xs) : (xs ++ [x]).eraseDups = xs.eraseDups := by
  simp [List.eraseDups_append, List.removeAll, h]

theorem eraseDups_concat_of_not_mem (h : x ∉ xs) :
    (xs ++ [x]).eraseDups = xs.eraseDups ++ [x] := by
  simp [List.eraseDups_append, List.removeAll, h, List.eraseDups_cons]

end

namespace Wiring

/-- The last record of a pair of ports. -/
def lastRecord? (records : List Wire) (e : PortId × PortId) : Option Wire :=
  (records.filter fun w => w.ends = e).getLast?

/-- One wire for each pair of ports, in the order in which the pairs appear, as the last record of
the pair says. -/
def latest (records : List Wire) : List Wire :=
  (records.map Wire.ends).eraseDups.filterMap (lastRecord? records)

theorem lastRecord?_append (records more : List Wire) (e : PortId × PortId) :
    lastRecord? (records ++ more) e = (lastRecord? more e).or (lastRecord? records e) := by
  simp only [lastRecord?, List.filter_append, List.getLast?_append]

theorem lastRecord?_singleton (w : Wire) (e : PortId × PortId) :
    lastRecord? [w] e = if w.ends = e then some w else none := by
  rw [lastRecord?, List.filter_singleton]
  by_cases h : w.ends = e <;> simp [h]

theorem ends_of_lastRecord? {records : List Wire} {e : PortId × PortId} {w : Wire}
    (h : lastRecord? records e = some w) : w.ends = e :=
  of_decide_eq_true (List.mem_filter.mp (List.mem_of_getLast? h)).2

theorem exists_lastRecord? {records : List Wire} {e : PortId × PortId}
    (h : e ∈ records.map Wire.ends) : ∃ w, lastRecord? records e = some w := by
  obtain ⟨w, hw, he⟩ := List.mem_map.mp h
  have hfound : w ∈ records.filter fun w => w.ends = e :=
    List.mem_filter.mpr ⟨hw, decide_eq_true he⟩
  exact Option.isSome_iff_exists.mp (List.getLast?_isSome.mpr (List.ne_nil_of_mem hfound))

theorem map_ends_latest (records : List Wire) :
    (latest records).map Wire.ends = (records.map Wire.ends).eraseDups := by
  have hends : ∀ e ∈ (records.map Wire.ends).eraseDups,
      (lastRecord? records e).map Wire.ends = some e := by
    intro e he
    obtain ⟨w, hw⟩ := exists_lastRecord? (List.mem_eraseDups.mp he)
    rw [hw, Option.map_some, ends_of_lastRecord? hw]
  rw [latest, List.map_filterMap, List.filterMap_congr hends, List.filterMap_some]

theorem mem_ends_latest_iff (records : List Wire) (e : PortId × PortId) :
    e ∈ (latest records).map Wire.ends ↔ e ∈ records.map Wire.ends := by
  rw [map_ends_latest, List.mem_eraseDups]

/-- One more record replaces the wire of its pair, or comes last. -/
theorem latest_concat {records : List Wire} (hd : Unique (latest records)) (w : Wire) :
    latest (records ++ [w]) = enter (latest records) w := by
  have hlast : ∀ e, lastRecord? (records ++ [w]) e =
      if w.ends = e then some w else lastRecord? records e := by
    intro e
    rw [lastRecord?_append, lastRecord?_singleton]
    split <;> rfl
  rw [latest, List.map_append, List.map_singleton]
  by_cases hm : w.ends ∈ records.map Wire.ends
  · rw [eraseDups_concat_of_mem hm, enter_of_mem hd ((mem_ends_latest_iff records w.ends).mpr hm),
      latest, List.map_filterMap]
    apply List.filterMap_congr
    intro e he
    obtain ⟨v, hv⟩ := exists_lastRecord? (List.mem_eraseDups.mp he)
    rw [hlast, hv, Option.map_some, ends_of_lastRecord? hv]
    by_cases hw : w.ends = e
    · rw [if_pos hw, if_pos hw.symm]
    · rw [if_neg hw, if_neg (Ne.symm hw)]
  · have hkeep : ∀ e ∈ (records.map Wire.ends).eraseDups,
        lastRecord? (records ++ [w]) e = lastRecord? records e := by
      intro e he
      have hne : w.ends ≠ e := fun hw => hm (hw ▸ List.mem_eraseDups.mp he)
      rw [hlast, if_neg hne]
    rw [eraseDups_concat_of_not_mem hm,
      enter_of_not_mem fun h => hm ((mem_ends_latest_iff records w.ends).mp h),
      List.filterMap_append, List.filterMap_congr hkeep, ← latest]
    simp [hlast]

/-- Entering records one after the other leaves the last one of each pair. -/
theorem wires_restore_eq_latest (records : List Wire) :
    (restore records).wires = latest records := by
  induction records using List.reverseRecOn with
  | nil => rfl
  | append_singleton records w ih =>
    have hd : Unique (latest records) := ih ▸ (reachable_restore records).eq_ofList.2
    rw [latest_concat hd, ← ih]
    exact List.foldl_append

theorem unique_latest (records : List Wire) : Unique (latest records) :=
  wires_restore_eq_latest records ▸ (reachable_restore records).eq_ofList.2

theorem restore_eq_latest (records : List Wire) : restore records = ofList (latest records) :=
  congrArg ofList (wires_restore_eq_latest records)

/-- Records that are all repeated in the same order count once. -/
theorem latest_append_self (records : List Wire) :
    latest (records ++ records) = latest records := by
  have hlast : lastRecord? (records ++ records) = lastRecord? records := by
    funext e
    rw [lastRecord?_append, Option.or_self]
  have hpairs : ((records ++ records).map Wire.ends).eraseDups =
      (records.map Wire.ends).eraseDups := by
    have hnone : (records.map Wire.ends).removeAll (records.map Wire.ends) = [] := by
      simp [List.removeAll, List.filter_eq_nil_iff]
    rw [List.map_append, List.eraseDups_append, hnone]
    exact List.append_nil _
  rw [latest, hlast, hpairs, ← latest]

/-! ### Records in another order -/

/-- Of records without a repeated pair each is the last of its pair, in any order. -/
theorem lastRecord?_perm {records shuffled : List Wire} (hd : Unique records)
    (hp : shuffled.Perm records) (e : PortId × PortId) :
    lastRecord? shuffled e = lastRecord? records e := by
  have hfound := hp.filter fun w => w.ends = e
  unfold lastRecord?
  cases hw : records.filter fun w => w.ends = e with
  | nil =>
    rw [hw] at hfound
    rw [hfound.eq_nil]
  | cons w rest =>
    have hmem : w ∈ records.filter fun w => w.ends = e := hw ▸ List.mem_cons_self
    obtain ⟨hr, he⟩ := List.mem_filter.mp hmem
    have hone := Keyed.filter_eq_singleton hd hr
    rw [of_decide_eq_true he, hw] at hone
    rw [hw, hone] at hfound
    rw [hfound.eq_singleton, hone]

theorem latest_perm {records shuffled : List Wire} (hp : shuffled.Perm records)
    (hlast : ∀ e, lastRecord? shuffled e = lastRecord? records e) :
    (latest shuffled).Perm (latest records) := by
  have hpairs : (shuffled.map Wire.ends).eraseDups.Perm (records.map Wire.ends).eraseDups := by
    rw [← map_ends_latest, ← map_ends_latest,
      List.perm_ext_iff_of_nodup (unique_latest shuffled) (unique_latest records)]
    intro e
    rw [mem_ends_latest_iff, mem_ends_latest_iff, (hp.map Wire.ends).mem_iff]
  rw [latest, funext hlast]
  exact hpairs.filterMap _

/-- Lookups at a port give the same wires in some order, and so the same numbers. -/
theorem neighbours_perm {wires wires' : List Wire} (hp : wires'.Perm wires) (p : PortId)
    (side : Side) :
    ((ofList wires').neighbours p side).Perm ((ofList wires).neighbours p side) ∧
      (ofList wires').count p side = (ofList wires).count p side ∧
      (ofList wires').countUnlocked p side = (ofList wires).countUnlocked p side := by
  have hfound := hp.filter fun w => side.near w = p
  rw [neighbours_ofList, neighbours_ofList, count_ofList, count_ofList, countUnlocked_ofList,
    countUnlocked_ofList]
  exact ⟨hfound, hfound.length_eq, hfound.countP_eq _⟩

end Wiring

namespace Desk

theorem restore_of_control {d : Desk} (hc : d.rendering = false) (records : List Wire) :
    d.restore records = .ok ((), { d with wiring := .ofList (Wiring.latest records) }) := by
  rw [restore, edit_of_control hc, Wiring.restore_eq_latest]

/-- Reading records gives one wire for each pair of ports, in the order in which the pairs appear
first, as the last record of the pair says, whatever was there before. Reading them again, or
twice in a row, makes no difference, and the wires of a wiring are read as that wiring. Records in
another order that agree on the last one of every pair, as all orders do if no pair is repeated,
give the same wires in some order: at every port there are the same wires on both sides, as many
and as many unlocked ones. -/
theorem restore_latest {d : Desk} (hc : d.rendering = false) (records : List Wire) :
    let wires := Wiring.latest records
    d.restore records = .ok ((), { d with wiring := .ofList wires }) ∧
      wires.map Wire.ends = (records.map Wire.ends).eraseDups ∧
      (∀ w ∈ wires, (records.filter fun v => v.ends = w.ends).getLast? = some w) ∧
      (∀ d', d.restore records = .ok ((), d') → d'.restore records = .ok ((), d')) ∧
      d.restore (records ++ records) = d.restore records ∧
      (∀ g : Wiring, g.Reachable → d.restore g.wires = .ok ((), { d with wiring := g })) ∧
      ∀ shuffled : List Wire, shuffled.Perm records →
        (Wiring.Unique records ∨
          ∀ e, Wiring.lastRecord? shuffled e = Wiring.lastRecord? records e) →
        ∃ g g', d.restore records = .ok ((), { d with wiring := g }) ∧
          d.restore shuffled = .ok ((), { d with wiring := g' }) ∧ g'.wires.Perm g.wires ∧
          ∀ p side, (g'.neighbours p side).Perm (g.neighbours p side) ∧
            g'.count p side = g.count p side ∧
            g'.countUnlocked p side = g.countUnlocked p side := by
  intro wires
  have hread := restore_of_control hc
  refine ⟨hread records, Wiring.map_ends_latest records, ?_, ?_, ?_, ?_, ?_⟩
  · intro w hw
    obtain ⟨e, -, he⟩ := List.mem_filterMap.mp hw
    rw [Wiring.ends_of_lastRecord? he]
    exact he
  · intro d' hd
    rw [hread] at hd
    cases hd
    exact restore_of_control (d := { d with wiring := .ofList wires }) hc records
  · rw [hread, hread, Wiring.latest_append_self]
  · intro g hg
    have hwires : Wiring.latest g.wires = g.wires := by
      rw [← Wiring.wires_restore_eq_latest, hg.wires_restore_of_perm (List.Perm.refl _)]
    rw [hread, hwires, ← hg.eq_ofList.1]
  · intro shuffled hp hagree
    have hlast : ∀ e, Wiring.lastRecord? shuffled e = Wiring.lastRecord? records e :=
      hagree.elim (fun hd => Wiring.lastRecord?_perm hd hp) id
    have hwires := Wiring.latest_perm hp hlast
    exact ⟨_, _, hread records, hread shuffled, hwires, Wiring.neighbours_perm hwires⟩

/-- Three records of one pair around a loop; another order in which the last of them is the same. -/
theorem restore_latest_of_repeated :
    let a : PortId := ⟨.fader 1, .audio, .output, 0, .none, none⟩
    let b : PortId := ⟨.trackInput 2, .audio, .input, 0, .none, none⟩
    let first : Wire := ⟨a, b, 1, true, true, 0⟩
    let loop : Wire := ⟨b, b, 1, false, true, 3⟩
    let middle : Wire := ⟨a, b, 2, false, true, 4⟩
    let last : Wire := ⟨a, b, 0.5, false, false, 5⟩
    let d : Desk := ⟨false, .ofList [⟨b, a, 1, true, true, 0⟩], {}, {}, {}⟩
    d.rendering = false ∧
      d.restore [first, loop, middle, last] =
        .ok ((), { d with wiring := .ofList [last, loop] }) ∧
      ∃ g g', d.restore [first, loop, middle, last] = .ok ((), { d with wiring := g }) ∧
        d.restore [loop, middle, first, last] = .ok ((), { d with wiring := g' }) ∧
        g'.wires.Perm g.wires ∧ g'.count b .source = g.count b .source := by
  intro a b first loop middle last d
  obtain ⟨hread, -, -, -, -, -, hshuffle⟩ :=
    restore_latest (d := d) rfl [first, loop, middle, last]
  have hlatest : Wiring.latest [first, loop, middle, last] = [last, loop] := by decide +kernel
  rw [hlatest] at hread
  have hp : [loop, middle, first, last].Perm [first, loop, middle, last] := by decide +kernel
  have hlast : ∀ e, Wiring.lastRecord? [loop, middle, first, last] e =
      Wiring.lastRecord? [first, loop, middle, last] e := by
    intro e
    have hfirst : first.ends = (a, b) := rfl
    have hmiddle : middle.ends = (a, b) := rfl
    have hend : last.ends = (a, b) := rfl
    by_cases he : (a, b) = e <;> by_cases hb : loop.ends = e <;>
      simp [Wiring.lastRecord?, hfirst, hmiddle, hend, he, hb]
  obtain ⟨g, g', hg, hg', hwires, hports⟩ := hshuffle _ hp (.inr hlast)
  exact ⟨rfl, hread, g, g', hg, hg', hwires, (hports b .source).2.1⟩

end Desk

end MixerRouting
