import MixerRouting.Persist.Sends
import MixerRouting.Persist.Wires
import MixerRouting.Proofs.Json.Compact
import MixerRouting.Proofs.Rows
import MixerRouting.Proofs.Wiring.Reordering

/-!
# What is saved is read back

Identities, bundles, sends and wires are read back from their texts as they
were, by any library that keeps to what is assumed of one. Numbers go through
their text as well: a finite one comes back as what the library reads of what it
writes, an infinity or NaN has no numeral and makes the whole text unreadable.
The base value of a wire is not written and comes back as zero, whatever it was.
-/
namespace MixerRouting

variable {c : JsonCodec}

/-! ### What is written -/

theorem Owner.writes_toJson (owner : Owner) : c.Writes owner.toJson := by
  have hid : ∀ id : OwnerId, c.Writes (.ofNat id.toNat) :=
    fun id => .ofNat (Nat.lt_trans id.toNat_lt_size (by decide))
  cases owner with
  | trackInput track => exact (hid track).tagged _
  | prefader track => exact (hid track).tagged _
  | fader track => exact (hid track).tagged _
  | send track slot =>
    have hslot : c.Writes (.ofNat slot.toNat) :=
      .ofNat (Nat.lt_trans slot.toNat_lt_size (by decide))
    exact (JsonCodec.Writes.record (by simp) (by simp [hid, hslot])).tagged _
  | plugin id => exact (hid id).tagged _
  | engine => exact .ofString _

theorem PortId.writes_toJson (p : PortId) : c.Writes p.toJson := by
  have howner := p.owner.writes_toJson (c := c)
  have hmedium : c.Writes p.medium.toJson := by cases p.medium <;> exact .ofString _
  have hdirection : c.Writes p.direction.toJson := by cases p.direction <;> exact .ofString _
  have hindex : c.Writes (.ofNat p.index.toNat) :=
    .ofNat (Nat.lt_trans p.index.toNat_lt_size (by decide))
  have hflags : c.Writes (.ofNat p.flags.bits.toNat) :=
    .ofNat (Nat.lt_trans p.flags.bits.toNat_lt_size (by decide))
  have hgroup : ∀ group, c.Writes (.ofString group) := .ofString
  unfold toJson
  apply JsonCodec.Writes.record
  · cases p.group <;> simp
  · cases p.group <;> simp [howner, hmedium, hdirection, hindex, hflags, hgroup]

theorem Bundle.writes_toJson (b : Bundle) : c.Writes b.toJson := by
  cases b with
  | stereo left right =>
    have hports : ∀ p : PortId, c.Writes p.toJson := PortId.writes_toJson
    exact (JsonCodec.Writes.record (by simp) (by simp [hports])).tagged _
  | midi port => exact port.writes_toJson.tagged _

theorem SendRecord.writes_toJson (r : SendRecord) : c.Writes (r.toJson c) := by
  have hslot : c.Writes (.ofNat r.slot.toNat) :=
    .ofNat (Nat.lt_trans r.slot.toNat_lt_size (by decide))
  have hports : ∀ p : PortId, c.Writes p.toJson := PortId.writes_toJson
  have hbundles : ∀ b : Bundle, c.Writes b.toJson := Bundle.writes_toJson
  have hswitches : ∀ b, c.Writes (.bool b) := .bool
  have hnumbers : ∀ x, c.Writes (c.ofSingle x) := .ofSingle
  refine .record (by simp) ?_
  simp [hslot, hports, hbundles, hswitches, hnumbers]

theorem Wire.writes_toJson (w : Wire) : c.Writes (w.toJson c) := by
  have hports : ∀ p : PortId, c.Writes p.toJson := PortId.writes_toJson
  have hswitches : ∀ b, c.Writes (.bool b) := .bool
  have hnumbers : ∀ x, c.Writes (c.ofSingle x) := .ofSingle
  refine .record (by simp) ?_
  simp [hports, hswitches, hnumbers]

theorem Wire.writes_array (wires : List Wire) : c.Writes (.array (wires.map (toJson c))) :=
  .array (List.forall_mem_map.mpr fun w _ => w.writes_toJson)

/-! ### What is read -/

section
variable (hc : c.Lawful)
include hc

theorem Owner.idOfJson?_ofNat (id : OwnerId) : idOfJson? c (.ofNat id.toNat) = some id := by
  rw [idOfJson?, hc.nat?_ofNat _ _ (Nat.le_sub_one_of_lt id.toNat_lt_size), Option.map_some,
    UInt32.ofNat_toNat]

theorem Owner.slotOfJson?_ofNat (slot : UInt8) : slotOfJson? c (.ofNat slot.toNat) = some slot := by
  rw [slotOfJson?, hc.nat?_ofNat _ _ (Nat.le_sub_one_of_lt slot.toNat_lt_size), Option.map_some,
    UInt8.ofNat_toNat]

theorem Owner.ofJson?_toJson (owner : Owner) : ofJson? c owner.toJson = some owner := by
  cases owner with
  | trackInput track => simp [toJson, ofJson?, hc.variant?_tagged, idOfJson?_ofNat hc]
  | prefader track => simp [toJson, ofJson?, hc.variant?_tagged, idOfJson?_ofNat hc]
  | fader track => simp [toJson, ofJson?, hc.variant?_tagged, idOfJson?_ofNat hc]
  | send track slot =>
    have hfields : c.fields? ["track", "slot"] (.record [("track", .ofNat track.toNat),
        ("slot", .ofNat slot.toNat)]) =
        some [some (.ofNat track.toNat), some (.ofNat slot.toNat)] := by
      rw [hc.fields?_record _ _ (by simp) (by simp)]
      simp [List.lookup_cons]
    simp [toJson, ofJson?, hc.variant?_tagged, hfields, idOfJson?_ofNat hc, slotOfJson?_ofNat hc]
  | plugin id => simp [toJson, ofJson?, hc.variant?_tagged, idOfJson?_ofNat hc]
  | engine => simp [toJson, ofJson?, hc.variant?_ofString, hc.unit?_ofString]

theorem Medium.ofJson?_toJson (medium : Medium) : ofJson? c medium.toJson = some medium := by
  cases medium <;> simp [toJson, ofJson?, hc.unit?_ofString]

theorem Direction.ofJson?_toJson (direction : Direction) :
    ofJson? c direction.toJson = some direction := by
  cases direction <;> simp [toJson, ofJson?, hc.unit?_ofString]

theorem PortId.fields?_toJson (p : PortId) :
    c.fields? ["owner", "port_type", "flow", "index", "flags", "port_group"] p.toJson =
      some [some p.owner.toJson, some p.medium.toJson, some p.direction.toJson,
        some (.ofNat p.index.toNat), some (.ofNat p.flags.bits.toNat),
        p.group.map .ofString] := by
  rw [toJson, hc.fields?_record]
  · cases p.group <;> simp [List.lookup_cons]
  · cases p.group <;> simp
  · cases p.group <;> simp

theorem PortId.ofJson?_toJson (p : PortId) : ofJson? c p.toJson = some p := by
  have hindex : indexOfJson? c (.ofNat p.index.toNat) = some p.index := by
    rw [indexOfJson?, hc.nat?_ofNat _ _ (Nat.le_sub_one_of_lt p.index.toNat_lt_size),
      Option.map_some, UInt16.ofNat_toNat]
  have hflags : flagsOfJson? c (some (.ofNat p.flags.bits.toNat)) = some p.flags := by
    rw [flagsOfJson?, hc.nat?_ofNat _ _ (Nat.le_sub_one_of_lt p.flags.bits.toNat_lt_size),
      Option.map_some, UInt32.ofNat_toNat]
  have hgroup : groupOfJson? c (p.group.map .ofString) = some p.group := by
    cases p.group with
    | none => rfl
    | some group => exact hc.optionalString?_ofString group
  simp [ofJson?, fields?_toJson hc, Owner.ofJson?_toJson hc, Medium.ofJson?_toJson hc,
    Direction.ofJson?_toJson hc, hindex, hflags, hgroup]

theorem Bundle.ofJson?_toJson (b : Bundle) : ofJson? c b.toJson = some b := by
  cases b with
  | stereo left right =>
    have hfields : c.fields? ["l", "r"] (.record [("l", left.toJson), ("r", right.toJson)]) =
        some [some left.toJson, some right.toJson] := by
      rw [hc.fields?_record _ _ (by simp) (by simp)]
      simp [List.lookup_cons]
    simp [toJson, ofJson?, hc.variant?_tagged, hfields, PortId.ofJson?_toJson hc]
  | midi port => simp [toJson, ofJson?, hc.variant?_tagged, PortId.ofJson?_toJson hc]

end

/-! ### Numbers -/

/-- A record with its amount as it is read back. -/
def SendRecord.reread? (c : JsonCodec) (r : SendRecord) : Option SendRecord :=
  (c.reread? r.amount).map fun amount => { r with amount }

theorem SendRecord.ofJson?_toJson (hc : c.Lawful) (r : SendRecord) :
    ofJson? c (r.toJson c) = r.reread? c := by
  have hfields : c.fields? ["slot", "amount", "enabled", "is_sidechain", "amount_port",
      "enabled_port", "inputs", "outputs"] (r.toJson c) =
      some [some (.ofNat r.slot.toNat), some (c.ofSingle r.amount), some (.bool r.enabled),
        some (.bool r.sidechain), some r.amountPort.toJson, some r.enabledPort.toJson,
        some r.inputs.toJson, some r.outputs.toJson] := by
    rw [toJson, hc.fields?_record _ _ (by simp) (by simp)]
    simp [List.lookup_cons]
  simp [ofJson?, hfields, reread?, Owner.slotOfJson?_ofNat hc, hc.single?_eq_reread?, hc.bool?_bool,
    PortId.ofJson?_toJson hc, Bundle.ofJson?_toJson hc, Option.map_eq_bind]

namespace Wire

/-- A wire with its gain as it is read back, and no base value. -/
def reread? (c : JsonCodec) (w : Wire) : Option Wire :=
  (c.reread? w.gain).map fun gain => { w with gain, base := 0 }

section
variable (hc : c.Lawful)
include hc

theorem ofJson?_toJson (w : Wire) : ofJson? c (w.toJson c) = w.reread? c := by
  have hfields : c.fields? ["src", "dest", "multiplier", "locked", "enabled"] (w.toJson c) =
      some [some w.src.toJson, some w.dest.toJson, some (c.ofSingle w.gain), some (.bool w.locked),
        some (.bool w.enabled)] := by
    rw [toJson, hc.fields?_record _ _ (by simp) (by simp)]
    simp [List.lookup_cons]
  simp [ofJson?, hfields, reread?, gainOfJson?, switchOfJson?, hc.single?_eq_reread?, hc.bool?_bool,
    PortId.ofJson?_toJson hc, Option.map_eq_bind]

theorem listOfJson?_toJson (wires : List Wire) :
    listOfJson? c (.array (wires.map (toJson c))) = wires.mapM (reread? c) := by
  rw [listOfJson?, List.mapM_map]
  exact congrArg (fun f => wires.mapM f) (funext (ofJson?_toJson hc))

theorem isSome_reread? (w : Wire) :
    (w.reread? c).isSome = (FloatValue.ofSingle w.gain).isFinite := by
  rw [reread?, Option.isSome_map, hc.isSome_reread?]

theorem mapM_reread?_isSome_iff (wires : List Wire) :
    (wires.mapM (reread? c)).isSome = true ↔
      ∀ w ∈ wires, (FloatValue.ofSingle w.gain).isFinite = true := by
  simp only [Row.isSome_mapM_iff, isSome_reread? hc]

end

/-- The ends and the switches of a wire, which reading does not change. -/
def outline (w : Wire) : (PortId × PortId) × Bool × Bool := (w.ends, w.locked, w.enabled)

theorem map_outline_of_reread? {wires read : List Wire}
    (h : wires.mapM (reread? c) = some read) : read.map outline = wires.map outline := by
  induction Row.mapM_eq_some_iff.mp h with
  | nil => rfl
  | @cons w w' wires read hw hrest ih =>
    obtain ⟨gain, -, rfl⟩ := Option.map_eq_some_iff.mp hw
    rw [List.map_cons, List.map_cons, ih (Row.mapM_eq_some_iff.mpr hrest)]
    rfl

end Wire

/-- Records with the outlines of a wiring's wires are entered one for one. -/
theorem Wiring.Reachable.restore_of_outlines {g : Wiring} (hg : g.Reachable) {records : List Wire}
    (h : records.map Wire.outline = g.wires.map Wire.outline) :
    Wiring.restore records = .ofList records := by
  have hends : records.map Wire.ends = g.wires.map Wire.ends := by
    simpa [List.map_map, Function.comp_def, Wire.outline] using congrArg (List.map Prod.fst) h
  have hd : Unique records := by
    rw [Unique, hends]
    exact hg.eq_ofList.2
  rw [(reachable_restore records).eq_ofList.1, wires_restore_of_unique hd]

namespace JsonCodec

/-- Every identity and every bundle is read back from its text as it was, so no two identities have
the same text. A send is read back if its amount is finite, and a list of wires if all gains are;
then nothing differs but the numbers, which are what reading makes of their texts, and the base
values, which are not written and come back as zero. The wires of a wiring whose gains are finite
give, wherever they are read, the same wires in the same order with the same ends and switches. -/
theorem saved_reads_back {c : JsonCodec} (hc : c.Lawful) :
    (∀ p : PortId, (c.parse? (c.print p.toJson)).bind (PortId.ofJson? c) = some p) ∧
    (∀ p q : PortId, c.print p.toJson = c.print q.toJson → p = q) ∧
    (∀ b : Bundle, (c.parse? (c.print b.toJson)).bind (Bundle.ofJson? c) = some b) ∧
    (∀ x : Float32, (c.reread? x).isSome = (FloatValue.ofSingle x).isFinite) ∧
    (∀ r : SendRecord, let text := c.print (r.toJson c)
      (c.parse? text).bind (SendRecord.ofJson? c) =
          (c.reread? r.amount).map (fun amount => { r with amount }) ∧
        (((c.parse? text).bind (SendRecord.ofJson? c)).isSome = true ↔
          (FloatValue.ofSingle r.amount).isFinite = true)) ∧
    (∀ wires : List Wire,
      let text := c.print (.array (wires.map (Wire.toJson c)))
      (c.parse? text).bind (Wire.listOfJson? c) =
          wires.mapM (fun w => (c.reread? w.gain).map fun gain => { w with gain, base := 0 }) ∧
        (((c.parse? text).bind (Wire.listOfJson? c)).isSome = true ↔
          ∀ w ∈ wires, (FloatValue.ofSingle w.gain).isFinite = true)) ∧
    ∀ (g : Wiring) (d : Desk), g.Reachable → d.rendering = false →
      (∀ w ∈ g.wires, (FloatValue.ofSingle w.gain).isFinite = true) →
      ∃ records, (c.parse? (c.print (g.toJson c))).bind (Wire.listOfJson? c) = some records ∧
        d.restore records = .ok ((), { d with wiring := .ofList records }) ∧
        records.map Wire.outline = g.wires.map Wire.outline := by
  have hport : ∀ p : PortId, (c.parse? (c.print p.toJson)).bind (PortId.ofJson? c) = some p := by
    intro p
    rw [hc.parse?_print_bind _ p.writes_toJson, PortId.ofJson?_toJson hc]
  have hwires : ∀ wires : List Wire, (c.parse? (c.print (.array (wires.map (Wire.toJson c))))).bind
      (Wire.listOfJson? c) = wires.mapM (Wire.reread? c) := by
    intro wires
    rw [hc.parse?_print_bind _ (Wire.writes_array wires), Wire.listOfJson?_toJson hc]
  refine ⟨hport, ?_, ?_, hc.isSome_reread?, ?_, ?_, ?_⟩
  · intro p q h
    have hp := hport p
    rw [h, hport q] at hp
    exact (Option.some.inj hp).symm
  · intro b
    rw [hc.parse?_print_bind _ b.writes_toJson, Bundle.ofJson?_toJson hc]
  · intro r text
    rw [hc.parse?_print_bind _ r.writes_toJson, SendRecord.ofJson?_toJson hc]
    exact ⟨rfl, by rw [SendRecord.reread?, Option.isSome_map, hc.isSome_reread?]⟩
  · intro wires text
    refine ⟨hwires wires, ?_⟩
    rw [hwires wires, Wire.mapM_reread?_isSome_iff hc]
  · intro g d hg hcontrol hfinite
    obtain ⟨records, hread⟩ :=
      Option.isSome_iff_exists.mp ((Wire.mapM_reread?_isSome_iff hc g.wires).mpr hfinite)
    have houtlines := Wire.map_outline_of_reread? hread
    refine ⟨records, (hwires g.wires).trans hread, ?_, houtlines⟩
    rw [Desk.restore, Desk.edit_of_control hcontrol, hg.restore_of_outlines houtlines]

/-- Compact texts of groups that are missing, empty and full of escapes, of wires with base values,
and of an infinite gain. -/
theorem saved_reads_back_of_escapes :
    let c := compact
    let plain : PortId := ⟨.engine, .control, .input, 0, .none, none⟩
    let unnamed : PortId := { plain with group := some "" }
    let quoted : PortId := ⟨.send 1 2, .cv, .output, 3, .sidechain, some "a\"\\\n\x01é"⟩
    let g := Wiring.restore [⟨quoted, unnamed, 0.1, true, false, 0.5⟩,
      ⟨quoted, plain, -0.0, false, true, 5⟩]
    let d : Desk := ⟨false, .ofList [⟨plain, quoted, 2, true, true, 0⟩], {}, {}, {}⟩
    let loud : Wire := ⟨quoted, plain, Float32.ofBits 0x7f800000, false, true, 0⟩
    c.Lawful ∧ g.Reachable ∧ c.print plain.toJson ≠ c.print unnamed.toJson ∧
      (c.parse? (c.print quoted.toJson)).bind (PortId.ofJson? c) = some quoted ∧
      (∃ records, (c.parse? (c.print (g.toJson c))).bind (Wire.listOfJson? c) = some records ∧
        d.restore records = .ok ((), { d with wiring := .ofList records }) ∧
        records.map Wire.outline =
          [((quoted, unnamed), true, false), ((quoted, plain), false, true)]) ∧
      (c.parse? (c.print (.array [loud.toJson c]))).bind (Wire.listOfJson? c) = none := by
  intro c plain unnamed quoted g d loud
  obtain ⟨hport, hdistinct, -, -, -, hwires, hsaved⟩ := saved_reads_back lawful_compact
  have hg : g.Reachable := Wiring.reachable_restore _
  have hfinite : ∀ w ∈ g.wires, (FloatValue.ofSingle w.gain).isFinite = true := by decide +kernel
  have hends : g.wires.map Wire.outline =
      [((quoted, unnamed), true, false), ((quoted, plain), false, true)] := by decide +kernel
  have hne : plain ≠ unnamed := by decide
  have hinfinite : (FloatValue.ofSingle loud.gain).isFinite = false := by decide +kernel
  obtain ⟨records, hread, hrestore, houtlines⟩ := hsaved g d hg rfl hfinite
  refine ⟨lawful_compact, hg, fun h => hne (hdistinct plain unnamed h), hport quoted,
    ⟨records, hread, hrestore, houtlines.trans hends⟩, ?_⟩
  rw [← Option.not_isSome_iff_eq_none]
  intro hsome
  have hall := (hwires [loud]).2.mp hsome
  rw [hall loud (List.mem_singleton_self _)] at hinfinite
  cases hinfinite

end JsonCodec

end MixerRouting
