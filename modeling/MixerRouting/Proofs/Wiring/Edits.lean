import MixerRouting.Proofs.Wiring.Positions

/-!
# Edits of a wiring as edits of a list

Each operation of a wiring looks a place up, edits the list there and builds
the indices anew. When the list joins each pair of ports at most once, the same
edit can be said without places: which wires go, which are replaced, and what
comes last. One equation for each operation says so; whoever needs the effect of
an operation uses its equation and never opens the operation.
-/
namespace MixerRouting.Wiring

/-- At most one wire joins two ports in one direction. -/
def Unique (wires : List Wire) : Prop := (wires.map Wire.ends).Nodup

theorem any_joins_iff (wires : List Wire) (src dest : PortId) :
    (wires.any fun w => w.joins src dest) = true ↔ (src, dest) ∈ wires.map Wire.ends := by
  simp [List.any_eq_true, Wire.joins_iff]

theorem any_joins_eq_isSome (wires : List Wire) (src dest : PortId) :
    (wires.any fun w => w.joins src dest) = ((ofList wires).locate? src dest).isSome := by
  rw [Bool.eq_iff_iff, any_joins_iff, ← not_iff_not, Option.not_isSome_iff_eq_none,
    locate?_eq_none_iff]

theorem ends_ne {wires : List Wire} {e : PortId × PortId} (hn : e ∉ wires.map Wire.ends)
    {w : Wire} (hw : w ∈ wires) : w.ends ≠ e :=
  fun he => hn (he ▸ List.mem_map_of_mem hw)

theorem countP_ends_le_one {wires : List Wire} (hd : Unique wires) (e : PortId × PortId) :
    (wires.countP fun w => w.ends = e) ≤ 1 := by
  calc (wires.countP fun w => w.ends = e)
      = (wires.map Wire.ends).count e := by
        rw [List.count_eq_countP, List.countP_map]
        exact List.countP_congr fun w _ => by simp
    _ ≤ 1 := List.nodup_iff_count_le_one.mp hd e

theorem find?_joins_eq_some_iff {wires : List Wire} (hd : Unique wires) (src dest : PortId)
    (w : Wire) :
    wires.find? (fun v => v.joins src dest) = some w ↔ w ∈ wires ∧ w.ends = (src, dest) := by
  have hj : (fun v : Wire => v.joins src dest) = fun v => decide (v.ends = (src, dest)) := by
    funext v
    rw [Bool.eq_iff_iff, Wire.joins_iff, decide_eq_true_iff]
  rw [hj]
  exact Keyed.find?_eq_some_iff hd (src, dest) w

theorem enter_of_mem {wires : List Wire} (hd : Unique wires) {w : Wire}
    (h : w.ends ∈ wires.map Wire.ends) :
    enter wires w = wires.map fun v => if v.ends = w.ends then w else v := by
  unfold enter
  cases hi : wires.findIdx? fun v => v.joins w.src w.dest with
  | none =>
    obtain ⟨v, hv, he⟩ := List.mem_map.mp h
    have hj := List.findIdx?_eq_none_iff.mp hi v hv
    rw [Bool.eq_false_iff, ne_eq, Wire.joins_iff] at hj
    exact absurd he hj
  | some i =>
    obtain ⟨hlt, hj, -⟩ := List.findIdx?_eq_some_iff_getElem.mp hi
    have he : wires[i].ends = w.ends := (Wire.joins_iff _ _ _).mp hj
    have hs := Keyed.set_eq_map w hd (List.getElem?_eq_getElem hlt)
    rw [he] at hs
    exact hs

theorem enter_of_not_mem {wires : List Wire} {w : Wire} (h : w.ends ∉ wires.map Wire.ends) :
    enter wires w = wires ++ [w] := by
  have hi : (wires.findIdx? fun v => v.joins w.src w.dest) = none := by
    rw [List.findIdx?_eq_none_iff]
    intro v hv
    rw [Bool.eq_false_iff, ne_eq, Wire.joins_iff]
    exact ends_ne h hv
  simp [enter, hi]

/-- The base value of the wire between two ports; that of a new wire if there is none. -/
def baseOf (wires : List Wire) (src dest : PortId) : Float32 :=
  ((wires.find? fun w => w.joins src dest).map Wire.base).getD 0

theorem baseOf_of_not_mem {wires : List Wire} {src dest : PortId}
    (hn : (src, dest) ∉ wires.map Wire.ends) : baseOf wires src dest = 0 := by
  have hf : wires.find? (fun w => w.joins src dest) = none := by
    rw [List.find?_eq_none]
    intro w hw hj
    exact ends_ne hn hw ((w.joins_iff src dest).mp hj)
  rw [baseOf, hf]
  rfl

theorem baseOf_of_mem {wires : List Wire} (hd : Unique wires) {w : Wire} (hw : w ∈ wires) :
    baseOf wires w.src w.dest = w.base := by
  rw [baseOf, (find?_joins_eq_some_iff hd w.src w.dest w).mpr ⟨hw, rfl⟩]
  rfl

theorem connect_ofList {wires : List Wire} (hd : Unique wires) (src dest : PortId)
    (gain : Float32) (locked enabled : Bool) :
    (ofList wires).connect src dest gain locked enabled =
      let w : Wire := ⟨src, dest, gain, locked, enabled, baseOf wires src dest⟩
      (w, ofList (enter wires w)) := by
  unfold connect
  cases hl : (ofList wires).locate? src dest with
  | none =>
    have hn := (locate?_eq_none_iff wires src dest).mp hl
    have he := enter_of_not_mem (w := ⟨src, dest, gain, locked, enabled, 0⟩) hn
    simp [baseOf_of_not_mem hn, he]
  | some place =>
    obtain ⟨i, old⟩ := place
    obtain ⟨hi, ho⟩ := joins_of_locate? hl
    have hm := List.mem_of_getElem? hi
    have hf := (find?_joins_eq_some_iff hd src dest old).mpr ⟨hm, ho⟩
    obtain ⟨rfl, rfl⟩ := Prod.mk.inj ho
    have he := enter_of_mem hd (w := old.update gain locked enabled)
      (List.mem_map.mpr ⟨old, hm, rfl⟩)
    have hs := Keyed.set_eq_map (old.update gain locked enabled) hd hi
    simp only [baseOf, hf, Option.map_some, Option.getD_some, ofList_wires, hs]
    exact congrArg (fun ws => (old.update gain locked enabled, ofList ws)) he.symm

theorem disconnect_ofList {wires : List Wire} (hd : Unique wires) (src dest : PortId) :
    (ofList wires).disconnect src dest =
      (wires.any fun w => w.joins src dest,
        ofList (wires.filter fun w => w.ends ≠ (src, dest))) := by
  rw [any_joins_eq_isSome]
  unfold disconnect
  cases hl : (ofList wires).locate? src dest with
  | none =>
    have hn := (locate?_eq_none_iff wires src dest).mp hl
    have hf : wires.filter (fun w => w.ends ≠ (src, dest)) = wires :=
      List.filter_eq_self.mpr fun w hw => decide_eq_true (ends_ne hn hw)
    simp only [hf, ofList_wires, Option.isSome_none]
  | some place =>
    obtain ⟨i, old⟩ := place
    obtain ⟨hi, ho⟩ := joins_of_locate? hl
    simp only [ofList_wires, Keyed.eraseIdx_eq_filter hd hi, ho, Option.isSome_some]

theorem removeWhere_ofList (wires : List Wire) (doomed : Wire → Bool) :
    (ofList wires).removeWhere doomed =
      (wires.countP doomed, ofList (wires.filter fun w => !doomed w)) := by
  have hc := List.length_eq_countP_add_countP doomed (l := wires)
  have hk : (wires.filter fun w => !doomed w).length = wires.countP fun w => ¬ doomed w = true := by
    simp [List.countP_eq_length_filter]
  simp only [removeWhere, ofList_wires, Prod.mk.injEq, and_true]
  omega

/-- The wires after an exchange: `after` stands where the wire between `old` stood, and another
wire between the ends of `after` is gone. -/
def exchange (wires : List Wire) (old : PortId × PortId) (after : Wire) : List Wire :=
  (wires.filter fun w => w.ends ≠ after.ends ∨ w.ends = old).map fun w =>
    if w.ends = old then after else w

theorem exchange_of_all {wires : List Wire} {old : PortId × PortId} {after : Wire}
    (h : ∀ w ∈ wires, w.ends ≠ after.ends ∨ w.ends = old) :
    exchange wires old after = wires.map fun w => if w.ends = old then after else w := by
  rw [exchange, List.filter_eq_self.mpr fun w hw => decide_eq_true (h w hw)]

theorem replace_ofList {wires : List Wire} (hd : Unique wires) (before after : Wire) :
    (ofList wires).replace before after =
      if before.ends ∈ wires.map Wire.ends then
        (true, ofList (exchange wires before.ends after))
      else (false, ofList wires) := by
  unfold replace
  cases hl : (ofList wires).locate? before.src before.dest with
  | none =>
    have hn := (locate?_eq_none_iff wires before.src before.dest).mp hl
    exact (if_neg hn).symm
  | some place =>
    obtain ⟨i, old⟩ := place
    obtain ⟨hi, ho⟩ := joins_of_locate? hl
    replace ho : old.ends = before.ends := ho
    have hb : before.ends ∈ wires.map Wire.ends :=
      ho ▸ List.mem_map_of_mem (List.mem_of_getElem? hi)
    have hs := Keyed.set_eq_map after hd hi
    rw [ho] at hs
    simp only [if_pos hb, ofList_wires, hs]
    cases hm : (ofList wires).locate? after.src after.dest with
    | none =>
      have hn := (locate?_eq_none_iff wires after.src after.dest).mp hm
      simp only [exchange_of_all fun w hw => Or.inl (ends_ne hn hw)]
    | some place =>
      obtain ⟨j, other⟩ := place
      obtain ⟨hj, hv⟩ := joins_of_locate? hm
      replace hv : other.ends = after.ends := hv
      -- The wire between the new ends may be the replaced one itself.
      by_cases hji : j = i
      · subst hji
        obtain rfl : other = old := Option.some.inj (hj.symm.trans hi)
        rw [exchange_of_all fun w _ =>
          Decidable.not_or_of_imp fun he => he.trans (hv.symm.trans ho)]
        simp
      · have hne : before.ends ≠ after.ends := fun he =>
          hji (Keyed.place_unique hd hj hi (hv.trans (he.symm.trans ho.symm)))
        have hf : (wires.filter fun w => w.ends ≠ after.ends) =
            wires.filter fun w => w.ends ≠ after.ends ∨ w.ends = before.ends := by
          apply List.filter_congr
          intro w _
          by_cases he : w.ends = before.ends <;> simp [he, hne]
        simp only [if_neg hji, List.eraseIdx_map, Keyed.eraseIdx_eq_filter hd hj, hv, exchange, hf]

/-- An edit that keeps the ends of all wires keeps the indices. -/
theorem with_wires_ofList {wires wires' : List Wire}
    (h : wires.map Wire.ends = wires'.map Wire.ends) :
    { ofList wires with wires := wires' } = ofList wires' := by
  have hsrc := congrArg (List.map Prod.fst) h
  have hdest := congrArg (List.map Prod.snd) h
  rw [List.map_map, List.map_map] at hsrc hdest
  simp only [ofList, mk.injEq, true_and]
  exact ⟨PositionIndex.build_congr hsrc, PositionIndex.build_congr hdest⟩

theorem setBase_ofList {wires : List Wire} (hd : Unique wires) (src dest : PortId)
    (value : Float32) :
    (ofList wires).setBase src dest value =
      (wires.any fun w => w.joins src dest,
        ofList (wires.map fun w =>
          if w.ends = (src, dest) then { w with base := value } else w)) := by
  rw [any_joins_eq_isSome]
  unfold setBase
  cases hl : (ofList wires).locate? src dest with
  | none =>
    have hn := (locate?_eq_none_iff wires src dest).mp hl
    have hm : ∀ w ∈ wires,
        (if w.ends = (src, dest) then { w with base := value } else w) = id w :=
      fun w hw => if_neg (ends_ne hn hw)
    simp only [List.map_congr_left hm, List.map_id, Option.isSome_none]
  | some place =>
    obtain ⟨i, old⟩ := place
    obtain ⟨hi, ho⟩ := joins_of_locate? hl
    have hs : wires.set i { old with base := value } =
        wires.map fun w => if w.ends = (src, dest) then { w with base := value } else w := by
      rw [Keyed.set_eq_map _ hd hi, ho]
      apply List.map_congr_left
      intro w hw
      by_cases he : w.ends = (src, dest)
      · rw [if_pos he, if_pos he,
          List.inj_on_of_nodup_map hd hw (List.mem_of_getElem? hi) (he.trans ho.symm)]
      · rw [if_neg he, if_neg he]
    have hk : wires.map Wire.ends = (wires.map fun w =>
        if w.ends = (src, dest) then { w with base := value } else w).map Wire.ends := by
      rw [List.map_map]
      apply List.map_congr_left
      intro w _
      rw [Function.comp_apply]
      split <;> rfl
    simp only [ofList_wires, hs, Option.isSome_some]
    exact congrArg (Prod.mk true) (with_wires_ofList hk)

end MixerRouting.Wiring
