import Mathlib.Data.List.Forall2
import MixerRouting.Proofs.Channel.Rendering
import MixerRouting.Proofs.Send.Twins
import MixerRouting.Proofs.Studio.Channels

/-!
# Channels read back from a project

A project keeps a record of every send and the wires. A new channel for the
same track, signal and settings, to which the records are applied, and a wiring
that is read back from the wires in any order behave as the old ones: off the
render thread every send gives the same answers, and what it renders is the
same.
-/
namespace MixerRouting

/-! ### Contents -/

/-- What the ports for one signal hold. -/
inductive Contents where
  | samples (left right : Samples)
  | events (events : List Event)
  deriving DecidableEq

def LiveBundle.contents : LiveBundle → Contents
  | .stereo pair => .samples pair.left.samples pair.right.samples
  | .midi port => .events port.queue.events

/-- What the inputs and the outputs hold. -/
def SendLines.contents (lines : SendLines) : Contents × Contents :=
  (lines.input.contents, lines.output.contents)

/-- What windows of a tap leave in a send depends on nothing but the contents of the tap. -/
theorem SendLines.contents_carrying {lines lines' : SendLines} {tap tap' : LiveBundle}
    (h : lines.Fits tap) (h' : lines'.Fits tap') (htap : tap'.contents = tap.contents)
    (f : Float32 → Float32) (heard sent : List Window) :
    (lines'.carrying f heard sent tap').contents = (lines.carrying f heard sent tap).contents := by
  cases tap with
  | stereo src =>
    cases tap' with
    | midi src' => cases htap
    | stereo src' =>
      cases lines with
      | event input output => cases h
      | audio input output =>
        cases lines' with
        | event input' output' => cases h'
        | audio input' output' =>
          obtain ⟨hleft, hright⟩ := Contents.samples.inj htap
          simp only [contents, carrying, SendLines.input, SendLines.output, LiveBundle.contents,
            StereoPair.hold, StereoPair.zip, hleft, hright]
  | midi src =>
    cases tap' with
    | stereo src' => cases htap
    | midi src' =>
      cases lines with
      | audio input output => cases h
      | event input output =>
        cases lines' with
        | audio input' output' => cases h'
        | event input' output' =>
          have hevents : src'.queue.events = src.queue.events := Contents.events.inj htap
          have hwithin : src'.queue.within = src.queue.within := by
            funext w
            rw [EventQueue.within, EventQueue.within, hevents]
          simp only [contents, carrying, SendLines.input, SendLines.output, LiveBundle.contents,
            EventPort.hold, EventQueue.throughout, hwithin]

/-! ### Channels on a desk -/

theorem LiveBundle.first_mem_faces (b : LiveBundle) :
    ∃ f ∈ b.faces, f.id = b.ids.first ∧ f.slot = b.primarySlot := by
  cases b with
  | stereo pair => exact ⟨pair.left.toPortFace, List.mem_cons_self, rfl, rfl⟩
  | midi port => exact ⟨port.toPortFace, List.mem_cons_self, rfl, rfl⟩

namespace Channel

/-- All ports of the channel are registered with their slots. The board handed out every slot in the
registry, each for one identity. -/
structure RegisteredOn (c : Channel) (d : Desk) : Prop where
  ports : ∀ f ∈ c.faces, d.registry.ports.get? f.id = some ⟨f.label, f.slot⟩
  apart : d.registry.SlotsApart
  onBoard : d.registry.OnBoard d.board

theorem RegisteredOn.lends {c : Channel} {d : Desk} (h : c.RegisteredOn d) {s : Send}
    (hs : s ∈ c.sends) : s.Lends d := by
  obtain ⟨f, hf, hid, hslot⟩ := s.lines.output.first_mem_faces
  have hfaces : f ∈ c.faces := by
    apply List.mem_append_right
    refine List.mem_flatMap.mpr ⟨s, hs, ?_⟩
    exact List.mem_cons_of_mem _ (List.mem_cons_of_mem _ (List.mem_append_right _ hf))
  have hport : d.registry.ports.get? s.outputs.first = some ⟨f.label, s.primaryOutputSlot⟩ := by
    rw [← show f.id = s.outputs.first from hid, ← show f.slot = s.primaryOutputSlot from hslot]
    exact h.ports f hfaces
  constructor
  · exact ⟨f.label, hport⟩
  · exact h.onBoard _ ((d.registry.mem_entries_iff _ _).mpr hport)
  · rintro ⟨p, port⟩ he hsame
    have hp := (d.registry.mem_entries_iff p port).mp he
    have hholder := (Registry.holder?_eq_some_iff h.apart s.primaryOutputSlot p).mpr
      ⟨port, hp, hsame⟩
    have hown := (Registry.holder?_eq_some_iff h.apart s.primaryOutputSlot s.outputs.first).mpr
      ⟨_, hport, rfl⟩
    exact Option.some.inj (hholder.symm.trans hown)

/-- What the sends hold, slot by slot. -/
def contents (c : Channel) : List (Contents × Contents) := c.sends.map fun s => s.lines.contents

/-- The desk is as a recalculation left it that ran on a wiring with the channel's ports
registered. -/
def RoutedOn (c : Channel) (g : Wiring) (d : Desk) : Prop :=
  ∃ before soft, before.wiring = g ∧ c.RegisteredOn before ∧ before.recalc soft = .ok d

/-! ### Records -/

/-- Applies a saved send to the slot that it names; a slot that the channel does not have is passed
over. -/
def applyRecord (c : Channel) (r : SendRecord) : Except SendError Channel :=
  match c.send? r.slot.toNat with
  | some s => (s.applyRecord r).map (c.setSend r.slot.toNat)
  | none => .ok c

def applyRecords (c : Channel) (records : List SendRecord) : Except SendError Channel :=
  records.foldlM applyRecord c

/-- Every send has a twin in its slot of the other channel, or its record is still to be applied. -/
def TwinsAfter (c c' : Channel) (records : List SendRecord) : Prop :=
  ∀ (slot : Nat) (s t : Send), c.sends[slot]? = some s → c'.sends[slot]? = some t →
    s.Twin t ∨ s.record ∈ records

variable {track : OwnerId} {signal : Signal} {settings : Settings} {c c' : Channel}

section
variable (h : c.Made track signal settings) (h' : c'.Made track signal settings)
include h h'

theorem Made.length_eq : c'.sends.length = c.sends.length := by
  rw [h'.length_sends, h.length_sends]

section
variable {slot : Nat} {s t : Send} (hs : c.sends[slot]? = some s) (ht : c'.sends[slot]? = some t)
include hs ht

theorem Made.outputs_eq : t.outputs = s.outputs := by
  obtain ⟨-, board, hb⟩ := h.blank_send hs
  obtain ⟨-, board', hb'⟩ := h'.blank_send ht
  rw [← t.outputs_blank, hb', Send.outputs_blank, ← s.outputs_blank, hb, Send.outputs_blank]
  exact Send.outputs_create ..

/-- The record of a send, applied in the same slot of another channel, makes a twin. -/
theorem Made.exists_twin : ∃ t', t.applyRecord s.record = .ok t' ∧ s.Twin t' := by
  have hsignal : s.record.outputs.signal = t.signal := by
    rw [h'.signal_send ht, ← h.signal_send hs]
    exact s.signal_outputs
  have hprefader : t.isPrefader = s.isPrefader :=
    (h'.isPrefader_send ht).trans (h.isPrefader_send hs).symm
  have houtputs : t.outputs = s.outputs := h.outputs_eq h' hs ht
  refine ⟨_, if_pos hsignal, ?_⟩
  constructor
  case outputs => exact houtputs
  case prefader => exact hprefader
  case unityEpsilon => exact (h'.unityEpsilon_send ht).trans (h.unityEpsilon_send hs).symm
  case on => exact ControlPort.isOn_switch ..
  case amount => rfl
  case sidechain => rfl

end

/-- Applying the record of one send gives it its twin, and the others keep theirs. -/
theorem Made.applyRecord {s : Send} (hs : s ∈ c.sends) {rest : List SendRecord}
    (htwins : c.TwinsAfter c' (s.record :: rest)) :
    ∃ c₂, c'.applyRecord s.record = .ok c₂ ∧ c₂.Made track signal settings ∧
      c.TwinsAfter c₂ rest := by
  obtain ⟨slot, hslot⟩ := List.mem_iff_getElem?.mp hs
  have hnumber : s.record.slot.toNat = slot := h.slot_send hslot
  have hlt : slot < c'.sends.length := by
    rw [h.length_eq h']
    exact (List.getElem?_eq_some_iff.mp hslot).1
  have ht : c'.sends[slot]? = some c'.sends[slot] := List.getElem?_eq_getElem hlt
  obtain ⟨t, happlied, htwin⟩ := h.exists_twin h' hslot ht
  refine ⟨c'.setSend slot t, ?_, h'.setSend ht (Send.blank_applyRecord happlied), ?_⟩
  · rw [Channel.applyRecord, hnumber, show c'.send? slot = _ from ht]
    exact congrArg (Except.map (c'.setSend slot)) happlied
  · intro other v u hv hu
    change (c'.sends.set slot t)[other]? = some u at hu
    by_cases hother : other = slot
    · subst hother
      rw [List.getElem?_set_self hlt] at hu
      cases hu
      cases hslot.symm.trans hv
      exact .inl htwin
    · rw [List.getElem?_set_ne (Ne.symm hother)] at hu
      refine (htwins other v u hv hu).imp_right fun hrecord => ?_
      -- A record names its slot, so it is nobody else's.
      refine (List.mem_cons.mp hrecord).resolve_left fun hsame => hother ?_
      rw [← h.slot_send hv, ← hnumber]
      exact congrArg (fun r => r.slot.toNat) hsame

theorem Made.applyRecords {records : List SendRecord}
    (hrecords : ∀ r ∈ records, ∃ s ∈ c.sends, s.record = r)
    (htwins : c.TwinsAfter c' records) :
    ∃ c₂, c'.applyRecords records = .ok c₂ ∧ c₂.Made track signal settings ∧
      List.Forall₂ Send.Twin c.sends c₂.sends := by
  induction records generalizing c' with
  | nil =>
    refine ⟨c', rfl, h', List.forall₂_iff_get.mpr ⟨(h.length_eq h').symm, ?_⟩⟩
    intro slot hs ht
    have htwin := htwins slot _ _ (List.getElem?_eq_getElem hs) (List.getElem?_eq_getElem ht)
    exact htwin.resolve_right List.not_mem_nil
  | cons r rest ih =>
    obtain ⟨s, hs, rfl⟩ := hrecords r List.mem_cons_self
    obtain ⟨c₁, hfirst, hmade, hafter⟩ := h.applyRecord h' hs htwins
    obtain ⟨c₂, hrest, hdone⟩ :=
      ih hmade (fun r hr => hrecords r (List.mem_cons_of_mem _ hr)) hafter
    refine ⟨c₂, ?_, hdone⟩
    rw [Channel.applyRecords, List.foldlM_cons, hfirst]
    exact hrest

/-- After a recalculation on either side, a cycle of one window leaves the same in twins. -/
theorem Made.contents_window (htwins : List.Forall₂ Send.Twin c.sends c'.sends)
    (hprefader : c'.prefader.contents = c.prefader.contents)
    (hfader : c'.fader.contents = c.fader.contents) {g g' : Wiring} (hg : g.Reachable)
    (hg' : g'.Reachable) (hp : g'.wires.Perm g.wires) {d d' : Desk} (hd : c.RoutedOn g d)
    (hd' : c'.RoutedOn g' d') (hfails : d.registry.FailsLike d'.registry) (w : Window) :
    (c'.prepare.process d'.registry d'.board w).contents =
      (c.prepare.process d.registry d.board w).contents := by
  obtain ⟨before, soft, rfl, hregistered, hafter⟩ := hd
  obtain ⟨before', soft', rfl, hregistered', hafter'⟩ := hd'
  rw [h.process_prepare, h'.process_prepare]
  apply List.ext_getElem
  · simp only [contents, rendered, List.length_map, h.length_eq h']
  · intro slot ht hs
    simp only [contents, rendered, List.length_map] at hs ht
    have htwin : c.sends[slot].Twin c'.sends[slot] := (List.forall₂_iff_get.mp htwins).2 slot hs ht
    have hpasses := htwin.passes hg hg' hp (hregistered.lends (List.getElem_mem hs))
      (hregistered'.lends (List.getElem_mem ht)) hafter hafter' hfails
    have htap : (c'.tapOf c'.sends[slot]).contents = (c.tapOf c.sends[slot]).contents := by
      rw [tapOf, tapOf, htwin.prefader]
      split
      · exact hprefader
      · exact hfader
    simp only [contents, rendered, List.getElem_map, Send.carrying, htwin.scaled, hpasses]
    exact SendLines.contents_carrying (h.fits (List.getElem?_eq_getElem hs))
      (h'.fits (List.getElem?_eq_getElem ht)) htap _ _ _

end

/-- A channel and a wiring that are read back from what was saved of them behave like the old ones.
The records and the wires may come in any order, the new channel may get any slots on the board,
and the new wiring may replace any other. Off the render thread every send gives the same answers
or the same errors as its original for every registry. If both graphs can be recalculated, with
each channel's ports in a registry and the same plugins failed, then sends whose taps hold the same
render the same in any window. -/
theorem Made.restores (h : c.Made track signal settings) {g : Wiring} (hg : g.Reachable)
    {records : List SendRecord} (hrecords : records.Perm (c.sends.map Send.record))
    {edges : List Wire} (hedges : edges.Perm g.wires) (board : Board) {control : Desk}
    (hcontrol : control.rendering = false) :
    ∃ c' g', ((create track signal settings).run board).1.applyRecords records = .ok c' ∧
      control.restore edges = .ok ((), { control with wiring := g' }) ∧
      List.Forall₂ (fun s t => s.AnswersAlike g t g') c.sends c'.sends ∧
      ∀ prefader fader, let filled : Channel := { c' with prefader, fader }
        filled.Made track signal settings → prefader.contents = c.prefader.contents →
        fader.contents = c.fader.contents → ∀ d d', c.RoutedOn g d → filled.RoutedOn g' d' →
          d.registry.FailsLike d'.registry → ∀ w,
            (filled.prepare.process d'.registry d'.board w).contents =
              (c.prepare.process d.registry d.board w).contents := by
  obtain ⟨c', happlied, -, htwins⟩ := h.applyRecords (made_create board)
    (fun r hr => List.mem_map.mp (hrecords.mem_iff.mp hr))
    fun slot s t hs _ => .inr (hrecords.mem_iff.mpr (List.mem_map_of_mem (List.mem_of_getElem? hs)))
  have hg' := Wiring.reachable_restore edges
  have hp : (Wiring.restore edges).wires.Perm g.wires := by
    rw [hg.wires_restore_of_perm hedges]
    exact hedges
  refine ⟨c', Wiring.restore edges, happlied, Desk.edit_of_control hcontrol .restore _, ?_, ?_⟩
  · exact htwins.imp fun s t htwin => htwin.answersAlike hg hg' hp
  · intro prefader fader filled hfilled hprefader hfader d d' hd hd' hfails w
    exact h.contents_window hfilled htwins hprefader hfader hg hg' hp hd hd' hfails w

/-- Two sends with raw switch values and one target, read back in reverse and onto other slots of
the board. Behind the fader there is an event. -/
theorem Made.restores_of_reverse :
    let settings : Settings := { sendSlots := 2, postFaderStart := 1, eventCapacity := 4 }
    let made := (create 1 .event settings).run {}
    let again := (create 1 .event settings).run made.2
    let target : PortId := ⟨.trackInput 2, .event, .input, 0, .none, none⟩
    let note : Event := ⟨3, 0x90, 60, 100⟩
    let fill := fun tap : LiveBundle =>
      match tap with
      | .midi port => .midi (port.hold [note])
      | tap => tap
    let c : Channel := { made.1 with
      fader := fill made.1.fader
      sends := made.1.sends.map fun s => s.setEnabledValue (Float32.ofBits 0x3f000000) }
    let back := (again.1.applyRecords (c.sends.map Send.record).reverse).toOption.getD again.1
    let filled : Channel := { back with fader := fill back.fader }
    let edges := c.sends.map fun s => Wiring.lockedWire (s.outputs.first, target)
    let desk := fun (c : Channel) (edges : List Wire) (board : Board) => (⟨false, .restore edges,
      ((({} : Registry).addPorts c.faces).registerPort target "in" board.fresh.1).2,
      board.fresh.2, {}⟩ : Desk)
    let played := fun (c : Channel) (before : Desk) => (before.recalc false).toOption.map fun d =>
      (c.prepare.process d.registry d.board ⟨0, 8⟩).contents
    played filled (desk filled edges.reverse again.2) = played c (desk c edges made.2) ∧
      played c (desk c edges made.2) =
        some [(.events [], .events []), (.events [note], .events [note])] := by
  intro settings made again target note fill c back filled edges desk played
  refine ⟨?_, by decide +kernel⟩
  have hmade : c.Made 1 .event settings := ⟨⟨{}, rfl⟩, Nat.zero_le 4, show 1 ≤ 4 by decide⟩
  have hg : (Wiring.restore edges).Reachable := Wiring.reachable_restore edges
  have hunique : Wiring.Unique edges := show (edges.map Wire.ends).Nodup by decide +kernel
  have hedges : edges.reverse.Perm (Wiring.restore edges).wires := by
    rw [Wiring.wires_restore_of_unique hunique]
    exact edges.reverse_perm
  have hcontrol : (desk c edges made.2).rendering = false := rfl
  obtain ⟨c', g', happlied, hrestored, -, hrendered⟩ :=
    hmade.restores hg (List.reverse_perm _) hedges made.2 hcontrol
  have hback : back = c' := congrArg (fun r => r.toOption.getD again.1) happlied
  have hwiring : Wiring.restore edges.reverse = g' := congrArg Desk.wiring
    (congrArg Prod.snd (Except.ok.inj hrestored))
  subst hback hwiring
  have hfilled : filled.Made 1 .event settings :=
    ⟨⟨made.2, rfl⟩, Nat.zero_le 4, show 1 ≤ 4 by decide⟩
  have hprefader : back.prefader.contents = c.prefader.contents := by decide +kernel
  have hfader : (fill back.fader).contents = c.fader.contents := by decide +kernel
  have hregistered : c.RegisteredOn (desk c edges made.2) :=
    ⟨by decide +kernel, by decide +kernel, by decide +kernel⟩
  have hregistered' : filled.RegisteredOn (desk filled edges.reverse again.2) :=
    ⟨by decide +kernel, by decide +kernel, by decide +kernel⟩
  have hplugins : ∀ (c : Channel) edges board id,
      (desk c edges board).registry.plugin? id = none := by
    intro c edges board id
    have hadded := congrArg Registry.plugins (Registry.addPorts_eq {} c.faces)
    exact congrArg (fun plugins : Table OwnerId PluginHandle => (plugins.get? id).bind _) hadded
  have hok : ((desk c edges made.2).recalc false).toOption.isSome = true := by decide +kernel
  have hok' : ((desk filled edges.reverse again.2).recalc false).toOption.isSome = true := by
    decide +kernel
  simp only [played]
  cases hd : (desk c edges made.2).recalc false with
  | error e =>
    rw [hd] at hok
    cases hok
  | ok d =>
    cases hd' : (desk filled edges.reverse again.2).recalc false with
    | error e =>
      rw [hd'] at hok'
      cases hok'
    | ok d' =>
      have hfails : d.registry.FailsLike d'.registry := by
        obtain ⟨-, -, recalcs, rfl⟩ := Desk.recalc_eq_ok hd
        obtain ⟨-, -, recalcs', rfl⟩ := Desk.recalc_eq_ok hd'
        intro id
        have hnone := hplugins c edges made.2 id
        have hnone' := hplugins filled edges.reverse again.2 id
        exact congrArg (Option.map Plugin.failed) (hnone'.trans hnone.symm)
      have hrouted : c.RoutedOn (.restore edges) d :=
        ⟨desk c edges made.2, false, rfl, hregistered, hd⟩
      have hrouted' : filled.RoutedOn (.restore edges.reverse) d' :=
        ⟨desk filled edges.reverse again.2, false, rfl, hregistered', hd'⟩
      have hsame := hrendered back.prefader (fill back.fader) hfilled hprefader hfader d d' hrouted
        hrouted' hfails ⟨0, 8⟩
      exact congrArg some hsame

end Channel

end MixerRouting
