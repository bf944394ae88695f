import MixerRouting.Proofs.Wiring.Outgoing

/-!
# Joining pairs of ports

Pairs of ports are joined one after the other by locked wires of gain one. A
wire that is there already becomes such a wire in its place and keeps its base
value; missing ones come last, in the order of the pairs. So one equation tells
what a series does to the list of wires, and a second series of the same pairs
does nothing. A send that connects makes the easiest case of it, with sources
that no wire leaves.
-/
namespace MixerRouting.Wiring

/-- A wire after pairs of ports were joined. If it joins one of them, only its ends and its base
value stay. -/
def rejoined (pairs : List (PortId × PortId)) (w : Wire) : Wire :=
  if w.ends ∈ pairs then w.update 1 true true else w

/-- The wires after pairs of ports were joined: those that were there keep their places, and the
missing ones come last, in the order of the pairs. -/
def joined (wires : List Wire) (pairs : List (PortId × PortId)) : List Wire :=
  wires.map (rejoined pairs) ++
    (pairs.filter fun pair => pair ∉ wires.map Wire.ends).map lockedWire

theorem rejoined_of_not_mem {pairs : List (PortId × PortId)} {w : Wire} (h : w.ends ∉ pairs) :
    rejoined pairs w = w := if_neg h

theorem map_rejoined_of_not_mem {pairs : List (PortId × PortId)} {wires : List Wire}
    (h : ∀ w ∈ wires, w.ends ∉ pairs) : wires.map (rejoined pairs) = wires :=
  (List.map_congr_left fun w hw => rejoined_of_not_mem (h w hw)).trans (List.map_id wires)

theorem ends_rejoined (pairs : List (PortId × PortId)) (w : Wire) :
    (rejoined pairs w).ends = w.ends := by
  unfold rejoined
  split <;> rfl

theorem rejoined_lockedWire (pairs : List (PortId × PortId)) (pair : PortId × PortId) :
    rejoined pairs (lockedWire pair) = lockedWire pair := ite_self _

theorem rejoined_rejoined (xs ys : List (PortId × PortId)) (w : Wire) :
    rejoined ys (rejoined xs w) = rejoined (xs ++ ys) w := by
  by_cases hx : w.ends ∈ xs
  · have hfirst : rejoined xs w = w.update 1 true true := if_pos hx
    have hboth : rejoined (xs ++ ys) w = w.update 1 true true :=
      if_pos (List.mem_append_left ys hx)
    rw [hfirst, hboth]
    exact ite_self _
  · have hys : w.ends ∈ ys ↔ w.ends ∈ xs ++ ys := by rw [List.mem_append, or_iff_right hx]
    rw [rejoined_of_not_mem hx]
    exact if_congr hys rfl rfl

theorem map_ends_joined (wires : List Wire) (pairs : List (PortId × PortId)) :
    (joined wires pairs).map Wire.ends =
      wires.map Wire.ends ++ pairs.filter fun pair => pair ∉ wires.map Wire.ends := by
  have hold : Wire.ends ∘ rejoined pairs = Wire.ends := funext (ends_rejoined pairs)
  have hnew : Wire.ends ∘ lockedWire = id := rfl
  rw [joined, List.map_append, List.map_map, List.map_map, hold, hnew, List.map_id]

/-- To join pairs after others is to join all of them at once. -/
theorem joined_append (wires : List Wire) {xs ys : List (PortId × PortId)}
    (h : ∀ pair ∈ ys, pair ∉ xs) : joined (joined wires xs) ys = joined wires (xs ++ ys) := by
  have hold : rejoined ys ∘ rejoined xs = rejoined (xs ++ ys) := funext (rejoined_rejoined xs ys)
  have hmade : rejoined ys ∘ lockedWire = lockedWire := funext (rejoined_lockedWire ys)
  have hmissing : (ys.filter fun pair => pair ∉ (joined wires xs).map Wire.ends) =
      ys.filter fun pair => pair ∉ wires.map Wire.ends := by
    apply List.filter_congr
    intro pair hy
    rw [map_ends_joined, decide_eq_decide, List.mem_append,
      or_iff_left fun hx => h pair hy (List.mem_filter.mp hx).1]
  calc joined (joined wires xs) ys
      = (joined wires xs).map (rejoined ys) ++
          (ys.filter fun pair => pair ∉ wires.map Wire.ends).map lockedWire := by
        rw [joined, hmissing]
    _ = joined wires (xs ++ ys) := by
        rw [joined, joined, List.map_append, List.map_map, List.map_map, hold, hmade,
          List.filter_append, List.map_append, List.append_assoc]

theorem rejoined_of_mem_joined {wires : List Wire} {pairs : List (PortId × PortId)} {w : Wire}
    (hw : w ∈ joined wires pairs) : rejoined pairs w = w := by
  rcases List.mem_append.mp hw with hold | hnew
  · obtain ⟨v, -, rfl⟩ := List.mem_map.mp hold
    have htwice : v.ends ∈ pairs ++ pairs ↔ v.ends ∈ pairs := by rw [List.mem_append, or_self]
    exact (rejoined_rejoined pairs pairs v).trans (if_congr htwice rfl rfl)
  · obtain ⟨pair, -, rfl⟩ := List.mem_map.mp hnew
    exact rejoined_lockedWire pairs pair

theorem mem_map_ends_joined (wires : List Wire) {pairs : List (PortId × PortId)}
    {pair : PortId × PortId} (hp : pair ∈ pairs) : pair ∈ (joined wires pairs).map Wire.ends := by
  rw [map_ends_joined, List.mem_append]
  by_cases hold : pair ∈ wires.map Wire.ends
  · exact .inl hold
  · exact .inr (List.mem_filter.mpr ⟨hp, decide_eq_true hold⟩)

/-- Nothing happens to pairs that were joined before. -/
theorem joined_joined (wires : List Wire) (pairs : List (PortId × PortId)) :
    joined (joined wires pairs) pairs = joined wires pairs := by
  have hsame : (joined wires pairs).map (rejoined pairs) = joined wires pairs :=
    (List.map_congr_left fun _ hw => rejoined_of_mem_joined hw).trans (List.map_id _)
  have hnone : (pairs.filter fun pair => pair ∉ (joined wires pairs).map Wire.ends) = [] := by
    rw [List.filter_eq_nil_iff]
    intro pair hpair hmissing
    exact of_decide_eq_true hmissing (mem_map_ends_joined wires hpair)
  rw [joined, hsame, hnone]
  exact List.append_nil _

theorem Reachable.wires_connect {g : Wiring} (h : g.Reachable) (pair : PortId × PortId) :
    (g.connect pair.1 pair.2 1 true true).2.wires = joined g.wires [pair] := by
  obtain ⟨hg, hd⟩ := h.eq_ofList
  rw [hg, connect_ofList hd]
  -- The wire that is entered, whether it is new or not.
  generalize hmade :
    (⟨pair.1, pair.2, 1, true, true, baseOf g.wires pair.1 pair.2⟩ : Wire) = made
  have hends : made.ends = pair := hmade ▸ rfl
  show enter g.wires made = joined g.wires [pair]
  by_cases hm : pair ∈ g.wires.map Wire.ends
  · have hold : ∀ w ∈ g.wires, (if w.ends = made.ends then made else w) = rejoined [pair] w := by
      intro w hw
      rw [hends]
      by_cases he : w.ends = pair
      · have hbase : made = w.update 1 true true := by
          rw [← hmade, ← he]
          exact congrArg (Wire.mk w.src w.dest 1 true true) (baseOf_of_mem hd hw)
        rw [if_pos he, hbase]
        exact (if_pos (List.mem_singleton.mpr he)).symm
      · rw [if_neg he, rejoined_of_not_mem (List.mem_singleton.not.mpr he)]
    have hnone : ([pair].filter fun pair => pair ∉ g.wires.map Wire.ends) = [] := by
      rw [List.filter_singleton, decide_eq_false (not_not.mpr hm)]
      rfl
    rw [enter_of_mem hd (hends.symm ▸ hm), joined, hnone, List.map_nil, List.append_nil]
    exact List.map_congr_left hold
  · have hold : g.wires.map (rejoined [pair]) = g.wires :=
      map_rejoined_of_not_mem fun w hw => List.mem_singleton.not.mpr (ends_ne hm hw)
    have hone : ([pair].filter fun pair => pair ∉ g.wires.map Wire.ends) = [pair] := by
      rw [List.filter_singleton, decide_eq_true hm]
      rfl
    have hbase : made = lockedWire pair := by
      rw [← hmade, baseOf_of_not_mem hm]
      rfl
    rw [enter_of_not_mem (hends.symm ▸ hm), joined, hone, hold, hbase]
    rfl

theorem Reachable.wires_connectLocked_eq {g : Wiring} (h : g.Reachable)
    {pairs : List (PortId × PortId)} (hn : pairs.Nodup) :
    (g.connectLocked pairs).wires = joined g.wires pairs := by
  induction pairs generalizing g with
  | nil =>
    exact ((List.append_nil _).trans (map_rejoined_of_not_mem fun _ _ => List.not_mem_nil)).symm
  | cons pair rest ih =>
    rw [List.nodup_cons] at hn
    have hapart : ∀ other ∈ rest, other ∉ [pair] := by
      intro other hother hsame
      exact hn.1 (List.mem_singleton.mp hsame ▸ hother)
    calc (g.connectLocked (pair :: rest)).wires
        = joined (g.connect pair.1 pair.2 1 true true).2.wires rest :=
          ih (h.connect pair.1 pair.2 1 true true) hn.2
      _ = joined (joined g.wires [pair]) rest := by rw [h.wires_connect]
      _ = joined g.wires (pair :: rest) := joined_append g.wires hapart

theorem Reachable.connectLocked_connectLocked {g : Wiring} (h : g.Reachable)
    {pairs : List (PortId × PortId)} (hn : pairs.Nodup) :
    (g.connectLocked pairs).connectLocked pairs = g.connectLocked pairs := by
  have hfirst := h.connectLocked pairs
  have hwires : ((g.connectLocked pairs).connectLocked pairs).wires =
      (g.connectLocked pairs).wires := by
    rw [hfirst.wires_connectLocked_eq hn, h.wires_connectLocked_eq hn, joined_joined]
  rw [(hfirst.connectLocked pairs).eq_ofList.1, hwires, ← hfirst.eq_ofList.1]

/-- Between two ports that were joined there is a locked wire of gain one. -/
theorem Reachable.find?_connectLocked {g : Wiring} (h : g.Reachable)
    {pairs : List (PortId × PortId)} (hn : pairs.Nodup) {pair : PortId × PortId}
    (hp : pair ∈ pairs) : ∃ w, (g.connectLocked pairs).find? pair.1 pair.2 = some w ∧
      w.gain = 1 ∧ w.locked = true ∧ w.enabled = true := by
  obtain ⟨w, hw, rfl⟩ := List.mem_map.mp (mem_map_ends_joined g.wires hp)
  have hsame : w.update 1 true true = w := (if_pos hp).symm.trans (rejoined_of_mem_joined hw)
  have hfound : (g.connectLocked pairs).find? w.src w.dest = some w := by
    rw [← h.wires_connectLocked_eq hn] at hw
    exact (find?_joins_eq_some_iff (h.connectLocked pairs).eq_ofList.2 _ _ w).mpr ⟨hw, rfl⟩
  exact ⟨w, hfound, (congrArg Wire.gain hsame).symm, (congrArg Wire.locked hsame).symm,
    (congrArg Wire.enabled hsame).symm⟩

/-- Where no wire leaves the sources and they are different, the new wires come last. -/
theorem Reachable.wires_connectLocked {g : Wiring} (h : g.Reachable)
    {pairs : List (PortId × PortId)} (hn : (pairs.map Prod.fst).Nodup)
    (hfree : ∀ w ∈ g.wires, w.src ∉ pairs.map Prod.fst) :
    (g.connectLocked pairs).wires = g.wires ++ pairs.map lockedWire := by
  have hfirst : ∀ w ∈ g.wires, w.ends ∉ pairs :=
    fun w hw hm => hfree w hw (List.mem_map_of_mem hm)
  have hall : (pairs.filter fun pair => pair ∉ g.wires.map Wire.ends) = pairs := by
    rw [List.filter_eq_self]
    intro pair hpair
    apply decide_eq_true
    intro hm
    obtain ⟨w, hw, rfl⟩ := List.mem_map.mp hm
    exact hfirst w hw hpair
  rw [h.wires_connectLocked_eq hn.of_map, joined, hall, map_rejoined_of_not_mem hfirst]

end MixerRouting.Wiring
