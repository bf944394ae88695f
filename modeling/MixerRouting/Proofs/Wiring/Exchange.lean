import MixerRouting.Proofs.Wiring.Lookup

/-!
# Putting one wire in the place of another

An exchange names the wire that goes by its ends. The new wire stands where that
one stood; if another wire joined the ends of the new one already, it goes, in
front of the place as well as behind it, and nothing else moves. Where no wire
had to go, exchanging the two once more leads back.
-/
namespace MixerRouting

namespace Wiring

theorem ends_ne_of_split {front back : List Wire} {old : Wire}
    (hd : Unique (front ++ old :: back)) : ∀ w ∈ front ++ back, w.ends ≠ old.ends := by
  have hmoved : Unique (old :: (front ++ back)) :=
    (List.perm_middle.map Wire.ends).nodup_iff.mp hd
  exact fun w hw => Keyed.key_ne_head hmoved hw

/-- Beside the exchanged wire only those stay that join other ports than the new wire. -/
theorem exchange_side {side : List Wire} {old : PortId × PortId}
    (hne : ∀ w ∈ side, w.ends ≠ old) (after : Wire) :
    exchange side old after = side.filter fun w => w.ends ≠ after.ends := by
  have hkept : (side.filter fun w => w.ends ≠ after.ends ∨ w.ends = old) =
      side.filter fun w => w.ends ≠ after.ends := by
    apply List.filter_congr
    intro w hw
    simp [hne w hw]
  have hsame : ∀ w ∈ side.filter (fun w => w.ends ≠ after.ends),
      (if w.ends = old then after else w) = id w :=
    fun w hw => if_neg (hne w (List.mem_filter.mp hw).1)
  rw [exchange, hkept, List.map_congr_left hsame, List.map_id]

theorem exchange_split {front back : List Wire} {old : Wire}
    (hd : Unique (front ++ old :: back)) (after : Wire) :
    exchange (front ++ old :: back) old.ends after =
      (front.filter fun w => w.ends ≠ after.ends) ++
        after :: back.filter fun w => w.ends ≠ after.ends := by
  have hne := ends_ne_of_split hd
  have hparts : exchange (front ++ old :: back) old.ends after =
      exchange front old.ends after ++ after :: exchange back old.ends after := by
    simp [exchange]
  rw [hparts, exchange_side (fun w hw => hne w (List.mem_append_left back hw)),
    exchange_side (fun w hw => hne w (List.mem_append_right front hw))]

/-- Exchanging back where no wire had to go. -/
theorem exchange_back {front back : List Wire} {old after : Wire}
    (hd : Unique (front ++ old :: back)) (hfree : ∀ w ∈ front ++ back, w.ends ≠ after.ends)
    (hd' : Unique ((front.filter fun w => w.ends ≠ after.ends) ++
      after :: back.filter fun w => w.ends ≠ after.ends)) :
    exchange ((front.filter fun w => w.ends ≠ after.ends) ++
      after :: back.filter fun w => w.ends ≠ after.ends) after.ends old = front ++ old :: back := by
  have hkept : ∀ side ⊆ front ++ back, (side.filter fun w => w.ends ≠ after.ends) = side :=
    fun side hside => List.filter_eq_self.mpr fun w hw => decide_eq_true (hfree w (hside hw))
  have hback : ∀ side ⊆ front ++ back, (side.filter fun w => w.ends ≠ old.ends) = side :=
    fun side hside =>
      List.filter_eq_self.mpr fun w hw => decide_eq_true (ends_ne_of_split hd w (hside hw))
  have hfront := List.subset_append_left front back
  have hrest := List.subset_append_right front back
  rw [hkept front hfront, hkept back hrest] at hd' ⊢
  rw [exchange_split hd', hback front hfront, hback back hrest]

end Wiring

namespace Desk

theorem replace_of_control {d : Desk} (hc : d.rendering = false) (hg : d.wiring.Reachable)
    (before after : Wire) :
    d.replace before after =
      if before.ends ∈ d.wiring.wires.map Wire.ends then
        .ok (true, { d with wiring := .ofList (Wiring.exchange d.wiring.wires before.ends after) })
      else .ok (false, d) := by
  obtain ⟨hwiring, hd⟩ := hg.eq_ofList
  have hreplace := Wiring.replace_ofList hd before after
  rw [← hwiring] at hreplace
  rw [replace, edit_of_control hc, hreplace]
  split <;> rfl

theorem reachable_of_replace {d d' : Desk} (hc : d.rendering = false) (hg : d.wiring.Reachable)
    {before after : Wire} {found : Bool} (h : d.replace before after = .ok (found, d')) :
    d'.wiring.Reachable := by
  rw [replace, edit_of_control hc] at h
  cases h
  exact .change (.replace before after) hg fun other h => absurd h.symm (Option.some_ne_none other)

/-- Where no wire joins the ends of `before`, nothing happens. Wherever one stands, `after` takes
its place, and of all wires in front of it and behind it those go that join the ends of `after`, of
which there is at most one; the rest stays in order, no two wires join the same ports, and all
positions are those of the new list. Where `before` is the wire itself and no other one joined the
ends of `after`, exchanging the two once more restores everything. -/
theorem replace_exchanges {d : Desk} (hc : d.rendering = false) (hg : d.wiring.Reachable)
    (before after : Wire) :
    (before.ends ∉ d.wiring.wires.map Wire.ends → d.replace before after = .ok (false, d)) ∧
    ∀ front old back, d.wiring.wires = front ++ old :: back → old.ends = before.ends →
      ∃ g : Wiring, d.replace before after = .ok (true, { d with wiring := g }) ∧
        g.wires = (front.filter fun w => w.ends ≠ after.ends) ++
          after :: (back.filter fun w => w.ends ≠ after.ends) ∧
        ((front ++ back).countP fun w => w.ends = after.ends) ≤ 1 ∧
        Wiring.Unique g.wires ∧
        (∀ p side, g.positions p side = g.wires.findIdxs fun w => side.near w = p) ∧
        (old = before → (∀ w ∈ front ++ back, w.ends ≠ after.ends) →
          { d with wiring := g }.replace after before = .ok (true, d)) := by
  have hreplace := replace_of_control hc hg before after
  constructor
  · intro hb
    rw [hreplace, if_neg hb]
  · intro front old back hsplit he
    obtain ⟨hwiring, hd⟩ := hg.eq_ofList
    have hdsplit := hsplit ▸ hd
    have hold : old ∈ d.wiring.wires := hsplit ▸ List.mem_append_right _ List.mem_cons_self
    rw [if_pos (List.mem_map.mpr ⟨old, hold, he⟩), ← he, hsplit,
      Wiring.exchange_split hdsplit] at hreplace
    have hg' := reachable_of_replace hc hg hreplace
    refine ⟨_, hreplace, rfl, ?_, hg'.eq_ofList.2, Wiring.positions_ofList _, ?_⟩
    · have hbeside := ((List.sublist_cons_self old back).append_left front).map Wire.ends
      exact Wiring.countP_ends_le_one (hdsplit.sublist hbeside) after.ends
    · rintro rfl hfree
      have hback := replace_of_control (d := { d with wiring := .ofList _ }) hc hg' after old
      have hthere : after.ends ∈ ((front.filter fun w => w.ends ≠ after.ends) ++
          after :: (back.filter fun w => w.ends ≠ after.ends)).map Wire.ends :=
        List.mem_map_of_mem (List.mem_append_right _ List.mem_cons_self)
      simp only [Wiring.ofList_wires, if_pos hthere,
        Wiring.exchange_back hdsplit hfree hg'.eq_ofList.2, ← hsplit, ← hwiring] at hback
      exact hback

/-- A loop takes the place of a wire, while the same loop stands in front of it; in another exchange
nothing has to go, and it is taken back. -/
theorem replace_exchanges_of_loop :
    let a : PortId := ⟨.fader 1, .audio, .output, 0, .none, none⟩
    let b : PortId := ⟨.trackInput 2, .audio, .input, 0, .none, none⟩
    let loop : Wire := ⟨a, a, 1, false, true, 0⟩
    let wire : Wire := ⟨a, b, 1, true, true, 7⟩
    let reverse : Wire := ⟨b, a, 1, true, false, 0⟩
    let newLoop : Wire := ⟨a, a, 2, true, false, 9⟩
    let other : Wire := ⟨b, b, 3, true, true, 1⟩
    let d : Desk := ⟨false, .ofList [loop, wire, reverse], {}, {}, {}⟩
    d.rendering = false ∧ d.wiring.Reachable ∧
      (∃ g : Wiring, d.replace wire newLoop = .ok (true, { d with wiring := g }) ∧
        g.wires = [newLoop, reverse]) ∧
      ∃ g : Wiring, d.replace wire other = .ok (true, { d with wiring := g }) ∧
        g.wires = [loop, other, reverse] ∧
        { d with wiring := g }.replace other wire = .ok (true, d) := by
  intro a b loop wire reverse newLoop other d
  have hg : d.wiring.Reachable := .change (.restore [loop, wire, reverse]) .empty nofun
  obtain ⟨-, hloop⟩ := replace_exchanges (d := d) rfl hg wire newLoop
  obtain ⟨-, hother⟩ := replace_exchanges (d := d) rfl hg wire other
  obtain ⟨g, hg₁, hwires₁, -⟩ := hloop [loop] wire [reverse] rfl rfl
  obtain ⟨g', hg₂, hwires₂, -, -, -, hback⟩ := hother [loop] wire [reverse] rfl rfl
  refine ⟨rfl, hg, ⟨g, hg₁, hwires₁.trans ?_⟩, g', hg₂, hwires₂.trans ?_, hback rfl ?_⟩
  · decide
  · decide
  · decide

end Desk

end MixerRouting
