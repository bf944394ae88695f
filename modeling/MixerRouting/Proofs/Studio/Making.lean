import MixerRouting.Proofs.Routing.Publication

/-!
# Ports take slots of the board

Whoever makes a port, a send or a channel takes new slots for it, whose
snapshots are empty, and leaves all snapshots that are there alone. The ports
that were made have the slots that were taken.
-/
namespace MixerRouting

/-- The other board has some more slots, with empty snapshots. -/
def Board.Extends (b b' : Board) : Prop :=
  ∃ more, b'.snapshots = b.snapshots ++ List.replicate more .empty

namespace Board.Extends
variable {b b' b'' : Board}

theorem refl (b : Board) : b.Extends b := ⟨0, (List.append_nil _).symm⟩

theorem trans (h : b.Extends b') (h' : b'.Extends b'') : b.Extends b'' := by
  obtain ⟨more, hm⟩ := h
  obtain ⟨more', hm'⟩ := h'
  exact ⟨more + more', by rw [hm', hm, List.append_assoc, List.replicate_append_replicate]⟩

theorem fresh (h : b.Extends b') : b.Extends b'.fresh.2 := h.trans ⟨1, rfl⟩

theorem length_le (h : b.Extends b') : b.snapshots.length ≤ b'.snapshots.length := by
  obtain ⟨more, hm⟩ := h
  rw [hm, List.length_append]
  exact Nat.le_add_right _ _

theorem read (h : b.Extends b') (slot : RouteSlot) : b'.read slot = b.read slot := by
  obtain ⟨more, hm⟩ := h
  unfold Board.read
  rw [hm]
  by_cases hi : slot.index < b.snapshots.length
  · rw [List.getElem?_append_left hi]
  · rw [List.getElem?_append_right (Nat.le_of_not_lt hi), List.getElem?_replicate,
      List.getElem?_eq_none (Nat.le_of_not_lt hi)]
    split <;> rfl

end Board.Extends

/-- Between the boards slots were taken, among them those of the ports. -/
structure Board.Took (b : Board) (ports : List PortFace) (b' : Board) : Prop where
  grown : b.Extends b'
  handedOut : ∀ f ∈ ports, f.slot.index < b'.snapshots.length

/-- Between the boards slots were taken for these ports and no others, for each port its own. -/
structure Board.Numbered (b : Board) (ports : List PortFace) (b' : Board) : Prop where
  grown : b'.snapshots = b.snapshots ++ List.replicate ports.length .empty
  numbers : (ports.map fun f => f.slot.index).Perm
    (List.range' b.snapshots.length ports.length)

namespace Board.Numbered
variable {b b' b'' : Board} {ports others : List PortFace}

theorem nil (b : Board) : b.Numbered [] b := ⟨(List.append_nil _).symm, .nil⟩

theorem length_eq (h : b.Numbered ports b') :
    b'.snapshots.length = b.snapshots.length + ports.length := by
  rw [h.grown, List.length_append, List.length_replicate]

theorem append (h : b.Numbered ports b') (h' : b'.Numbered others b'') :
    b.Numbered (ports ++ others) b'' := by
  constructor
  case grown =>
    rw [h'.grown, h.grown, List.append_assoc, List.replicate_append_replicate, List.length_append]
  case numbers =>
    rw [List.map_append, List.length_append, ← List.range'_append_1, ← h.length_eq]
    exact h.numbers.append h'.numbers

/-- One more port with the slot that is next. -/
theorem port (h : b.Numbered ports b') (id : PortId) (label : String) :
    b.Numbered (ports ++ [⟨id, label, b'.fresh.1⟩]) b'.fresh.2 :=
  h.append ⟨rfl, .refl _⟩

theorem perm (h : b.Numbered ports b') (hp : ports.Perm others) : b.Numbered others b' := by
  constructor
  case grown => exact hp.length_eq ▸ h.grown
  case numbers => exact hp.length_eq ▸ (hp.symm.map _).trans h.numbers

theorem slot_bounds (h : b.Numbered ports b') {f : PortFace} (hf : f ∈ ports) :
    b.snapshots.length ≤ f.slot.index ∧ f.slot.index < b'.snapshots.length := by
  rw [h.length_eq]
  exact List.mem_range'_1.mp (h.numbers.subset (List.mem_map_of_mem hf))

theorem nodup_slots (h : b.Numbered ports b') : (ports.map PortFace.slot).Nodup := by
  apply List.Nodup.of_map RouteSlot.index
  rw [List.map_map]
  exact h.numbers.nodup_iff.mpr List.nodup_range'

theorem took (h : b.Numbered ports b') : b.Took ports b' :=
  ⟨⟨ports.length, h.grown⟩, fun _ hf => (h.slot_bounds hf).2⟩

end Board.Numbered

/-! ### What is made -/

section
variable (b : Board)

theorem StereoPair.numbered_create (owner : Owner) (direction : Direction) (base : UInt16)
    (label : String) (length : Nat) :
    let made := (create owner direction base label length).run b
    b.Numbered made.1.faces made.2 :=
  ((Board.Numbered.nil b).port _ _).port _ _

theorem LiveBundle.numbered_create (signal : Signal) (owner : Owner) (direction : Direction)
    (label : String) (settings : Settings) :
    let made := (create signal owner direction label settings).run b
    b.Numbered made.1.faces made.2 := by
  cases signal with
  | audio => exact StereoPair.numbered_create b owner direction 0 label settings.blockLength
  | event => exact (Board.Numbered.nil b).port _ _

/-- A send takes slots for its controls, then for its inputs and outputs. -/
theorem Send.numbered_create (track : OwnerId) (slot : UInt8) (signal : Signal)
    (settings : Settings) :
    let made := (create track slot signal settings).run b
    b.Numbered made.1.faces made.2 := by
  have hcontrols := fun enabled amount label label' =>
    ((Board.Numbered.nil b).port enabled label).port amount label'
  cases signal with
  | audio => exact ((((hcontrols _ _ _ _).port _ _).port _ _).port _ _).port _ _
  | event => exact ((hcontrols _ _ _ _).port _ _).port _ _

theorem Send.primaryOutputSlot_mem (s : Send) :
    s.primaryOutputSlot ∈ s.faces.map PortFace.slot := by
  simp only [faces, List.map_cons, List.map_append, List.mem_cons, List.mem_append]
  right; right; right
  unfold primaryOutputSlot
  cases s.lines.output <;> exact List.mem_cons_self

/-- A send is made with slots that the board hands out. -/
theorem Send.slot_lt_of_create (track : OwnerId) (slot : UInt8) (signal : Signal)
    (settings : Settings) (b : Board) :
    let made := (create track slot signal settings).run b
    made.1.primaryOutputSlot.index < made.2.snapshots.length := by
  intro made
  obtain ⟨f, hf, hslot⟩ := List.mem_map.mp made.1.primaryOutputSlot_mem
  exact hslot ▸ (numbered_create b track slot signal settings).took.handedOut f hf

/-- Making one thing after the other. -/
theorem Building.numbered_mapM {α β : Type} {f : α → Building β} (faces : β → List PortFace)
    (h : ∀ (x : α) (b : Board), b.Numbered (faces ((f x).run b).1) ((f x).run b).2)
    (xs : List α) : b.Numbered (((xs.mapM f).run b).1.flatMap faces) ((xs.mapM f).run b).2 := by
  induction xs generalizing b with
  | nil => exact .nil b
  | cons x xs ih =>
    rw [List.mapM_cons]
    exact (h x b).append (ih _)

theorem Channel.numbered_create (track : OwnerId) (signal : Signal) (settings : Settings) :
    let made := (create track signal settings).run b
    b.Numbered made.1.faces made.2 := by
  have hsends := Building.numbered_mapM b Send.faces
    (fun (slot : Nat) b => Send.numbered_create b track (UInt8.ofNat slot) signal settings)
    (List.range (min settings.sendSlots Settings.maxSlots))
  have hpre := fun label b =>
    LiveBundle.numbered_create b signal (.prefader track) .output label settings
  have hfader := fun label b =>
    LiveBundle.numbered_create b signal (.fader track) .output label settings
  -- The sends take their slots first, but the taps stand in front of them.
  have hperm : ∀ {pre fader sends : List PortFace},
      (sends ++ pre ++ fader).Perm (pre ++ fader ++ sends) := by
    intro pre fader sends
    rw [List.append_assoc sends]
    exact List.perm_append_comm
  exact ((hsends.append (hpre _ _)).append (hfader _ _)).perm hperm

end

end MixerRouting
