import MixerRouting.Proofs.Number.Singles
import MixerRouting.Proofs.Rows
import MixerRouting.Proofs.Toml.Plain
import MixerRouting.Settings.File

/-!
# Settings files read back

A settings file has one line for each setting, so reading it finds every setting
again and no default takes the place of one. A size is read back as the same
integer. A tolerance takes the way from single to double precision, to a text
and back: the library reads the same number in double precision, and that is
exactly the number in single precision.
-/
namespace MixerRouting.Settings

variable {c : TomlCodec}

/-! ### Writing -/

/-- The sizes, all settings but the tolerance. -/
def sizes (s : Settings) : List Nat :=
  [s.blockLength, s.sendSlots, s.postFaderStart, s.eventCapacity]

theorem forall_sizes_iff {s : Settings} {P : Nat → Prop} :
    (∀ n ∈ s.sizes, P n) ↔
      P s.blockLength ∧ P s.sendSlots ∧ P s.postFaderStart ∧ P s.eventCapacity := by
  simp [sizes]

theorem plain_fields (s : Settings) : TomlCodec.Plain s.fields where
  keys := by
    simp only [fields, List.map_cons, List.map_nil]
    decide
  bare := by
    simp only [fields, List.forall_mem_cons, List.not_mem_nil, false_implies, implies_true,
      and_true]
    decide +kernel

theorem save_writable (s : Settings) (path : String) : s.save c path true = s.text c := by
  unfold save
  cases s.text c with
  | error fault => rfl
  | ok out => rfl

theorem text_eq_ok_iff {s : Settings} {out : String} :
    s.text c = .ok out ↔ c.print? s.fields = some out := by
  unfold text
  cases c.print? s.fields <;> simp

section
variable (hc : c.Lawful)
include hc

theorem line?_size_isSome_iff (key : String) (n : Nat) :
    (c.line? (key, .size n)).isSome = true ↔ n ≤ TomlCodec.maxSize := by
  rw [TomlCodec.line?, Option.isSome_map, hc.numberText?_size]
  split
  next hn => exact iff_of_true rfl hn
  next hn => exact iff_of_false Bool.false_ne_true hn

theorem line?_double_isSome (key : String) (v : FloatValue) :
    (c.line? (key, .double v)).isSome = true := by
  rw [TomlCodec.line?, Option.isSome_map]
  exact hc.numberText?_double v

/-- Settings can be written if and only if a text has all sizes as integers. -/
theorem exists_text_iff (s : Settings) :
    (∃ out, s.text c = .ok out) ↔ ∀ n ∈ s.sizes, n ≤ TomlCodec.maxSize := by
  simp only [text_eq_ok_iff, ← Option.isSome_iff_exists]
  rw [hc.print?_eq _ s.plain_fields, Option.isSome_map, Row.isSome_mapM_iff,
    forall_sizes_iff]
  simp [fields, line?_size_isSome_iff hc, line?_double_isSome hc]

/-! ### Reading -/

theorem reread?_size {n : Nat} (hn : n ≤ TomlCodec.maxSize) (key : String) :
    c.reread? (key, .size n) = some (key, .integer n) := by
  rw [TomlCodec.reread?, hc.numberText?_size, if_pos hn, Option.bind_some, hc.value?_size n hn]
  rfl

theorem reread?_double {units : Nat} {scale : Int} (h : FloatFormat.double.Holds units scale)
    (negative : Bool) (key : String) :
    c.reread? (key, .double (.finite negative units scale)) =
      some (key, .float (.finite negative units scale)) := by
  rw [TomlCodec.reread?, hc.value?_double negative units scale h]
  rfl

/-- All fields are read back as they were written. -/
theorem mapM_reread?_fields {s : Settings} (hsizes : ∀ n ∈ s.sizes, n ≤ TomlCodec.maxSize)
    {negative : Bool} {units : Nat} {scale : Int} (hholds : FloatFormat.double.Holds units scale)
    (hwidened : FloatFormat.double.ofValue (FloatValue.ofSingle s.unityEpsilon) =
      .finite negative units scale) :
    s.fields.mapM c.reread? = some (s.fields.map fun field => (field.1, field.2.value)) := by
  obtain ⟨hblock, hsends, hpost, hevents⟩ := forall_sizes_iff.mp hsizes
  simp [fields, hwidened, reread?_size hc hblock, reread?_size hc hsends, reread?_size hc hpost,
    reread?_size hc hevents, reread?_double hc hholds, TomlNumber.value]

theorem ofFields?_fields {s : Settings} {negative : Bool} {units : Nat} {scale : Int}
    (hwidened : FloatFormat.double.ofValue (FloatValue.ofSingle s.unityEpsilon) =
      .finite negative units scale)
    (htolerance : (FloatValue.finite negative units scale).toSingle = s.unityEpsilon) :
    ofFields? c (s.fields.map fun field => (field.1, field.2.value)) = some s := by
  have hsize : ∀ n : Nat, c.size? (.integer n) = some n := fun n =>
    (hc.size?_eq_some_iff _ n).mpr rfl
  simp only [ofFields?, fields, List.map_cons, List.map_nil, List.lookup_cons, String.reduceBEq,
    TomlNumber.value, readOr, hsize, hwidened, hc.single?_float, htolerance]
  rfl

omit hc in
theorem isFinite_of_check {s : Settings} (h : s.check = .ok ()) :
    s.unityEpsilon.isFinite = true := by
  by_contra hinfinite
  have hbad : (!s.unityEpsilon.isFinite || decide (s.unityEpsilon < 0)) = true := by
    rw [Bool.eq_false_of_not_eq_true hinfinite]
    rfl
  simp only [check, hbad, if_true] at h
  split_ifs at h

/-- Settings that are in range are read from the text that is written for them. -/
theorem parse_text {s : Settings} {out : String} (hcheck : s.check = .ok ())
    (hout : s.text c = .ok out) : parse c out = .ok s := by
  have hsizes := (exists_text_iff hc s).mp ⟨out, hout⟩
  obtain ⟨negative, units, scale, hwidened, hholds, htolerance⟩ :=
    exists_widened (isFinite_of_check hcheck)
  rw [text_eq_ok_iff, hc.print?_eq _ s.plain_fields] at hout
  obtain ⟨lines, hlines, rfl⟩ := Option.map_eq_some_iff.mp hout
  have hread := hc.parse?_lines _ _ _ s.plain_fields hlines
    (mapM_reread?_fields hc hsizes hholds hwidened)
  rw [parse, hread, Option.bind_some, ofFields?_fields hc hwidened htolerance]
  simp only [hcheck]

/-- A size is an integer of the text, or a default. -/
theorem le_of_readOr_size? {text : String} {fields : List (String × TomlValue)}
    (hfields : c.parse? text = some fields) {key : String} {default n : Nat}
    (hdefault : default ≤ TomlCodec.maxSize)
    (h : readOr c.size? default (fields.lookup key) = some n) : n ≤ TomlCodec.maxSize := by
  cases hfound : fields.lookup key with
  | none =>
    rw [hfound] at h
    cases h
    exact hdefault
  | some v =>
    rw [hfound] at h
    obtain rfl := (hc.size?_eq_some_iff v n).mp h
    obtain ⟨front, back, rfl, -⟩ := List.lookup_eq_some_iff.mp hfound
    exact Int.ofNat_le.mp (hc.le_maxSize text _ key n hfields (by simp))

/-- Settings that are read are in range, and their sizes are integers of a text. -/
theorem check_and_sizes_le_of_parse {given : String} {s : Settings} (h : parse c given = .ok s) :
    s.check = .ok () ∧ ∀ n ∈ s.sizes, n ≤ TomlCodec.maxSize := by
  unfold parse at h
  split at h
  · cases h
  next read hread =>
    split at h
    next hcheck =>
      cases h
      refine ⟨hcheck, ?_⟩
      obtain ⟨fields, hfields, hmade⟩ := Option.bind_eq_some_iff.mp hread
      simp only [ofFields?, bind, pure] at hmade
      obtain ⟨blockLength, hblock, hmade⟩ := Option.bind_eq_some_iff.mp hmade
      obtain ⟨sendSlots, hsends, hmade⟩ := Option.bind_eq_some_iff.mp hmade
      obtain ⟨postFaderStart, hpost, hmade⟩ := Option.bind_eq_some_iff.mp hmade
      obtain ⟨unityEpsilon, -, hmade⟩ := Option.bind_eq_some_iff.mp hmade
      obtain ⟨eventCapacity, hevents, hmade⟩ := Option.bind_eq_some_iff.mp hmade
      cases hmade
      exact forall_sizes_iff.mpr ⟨le_of_readOr_size? hc hfields (by decide) hblock,
        le_of_readOr_size? hc hfields (by decide) hsends,
        le_of_readOr_size? hc hfields (by decide) hpost,
        le_of_readOr_size? hc hfields (by decide) hevents⟩
    next => cases h

end

theorem load_toUTF8 (path out : String) : load c path (some out.toUTF8) = parse c out := by
  have hvalid : String.fromUTF8? out.toUTF8 = some out := dif_pos out.isValidUTF8
  simp only [load, hvalid]

/-! ### There and back -/

/-- Settings can be saved to a file that can be written if and only if no size is above the
greatest integer of a text, and if they are in range as well, loading what was saved gives the
same settings. So all settings that were read from a text can be saved and loaded again. -/
theorem save_load {c : TomlCodec} (hc : c.Lawful) :
    (∀ (s : Settings) (path : String),
      ((∃ out, s.save c path true = .ok out) ↔
        s.blockLength ≤ 2 ^ 63 - 1 ∧ s.sendSlots ≤ 2 ^ 63 - 1 ∧ s.postFaderStart ≤ 2 ^ 63 - 1 ∧
          s.eventCapacity ≤ 2 ^ 63 - 1) ∧
      ∀ out, s.save c path true = .ok out → s.check = .ok () →
        ∀ source, load c source (some out.toUTF8) = .ok s) ∧
    ∀ (given : String) (s : Settings), parse c given = .ok s →
      s.check = .ok () ∧ ∀ path, ∃ out, s.save c path true = .ok out ∧
        ∀ source, load c source (some out.toUTF8) = .ok s := by
  have hload : ∀ (s : Settings) (path out : String), s.save c path true = .ok out →
      s.check = .ok () → ∀ source, load c source (some out.toUTF8) = .ok s := by
    intro s path out hout hcheck source
    rw [save_writable] at hout
    rw [load_toUTF8, parse_text hc hcheck hout]
  refine ⟨fun s path => ⟨?_, hload s path⟩, ?_⟩
  · rw [save_writable, exists_text_iff hc, forall_sizes_iff]
    exact Iff.rfl
  · intro given s hgiven
    obtain ⟨hcheck, hsizes⟩ := check_and_sizes_le_of_parse hc hgiven
    refine ⟨hcheck, fun path => ?_⟩
    obtain ⟨out, hout⟩ := (exists_text_iff hc s).mpr hsizes
    rw [← save_writable s path] at hout
    exact ⟨out, hout, hload s path out hout hcheck⟩

/-- Plain texts: one with a comment, a size in base sixteen and a tolerance with an exponent; the
greatest size with the negative zero; and a size that is too large by one. -/
theorem save_load_extremes :
    let c := TomlCodec.plain
    let given := "# twelve sends\nsend_slots = 0x0c\nunity_epsilon = 1e-7"
    let twelve : Settings := { sendSlots := 12, unityEpsilon := Float32.ofBits 0x33d6bf95 }
    let greatest : Settings :=
      { blockLength := 2 ^ 63 - 1, unityEpsilon := Float32.ofBits 0x80000000 }
    c.Lawful ∧
    (parse c given = .ok twelve ∧ ∃ out, twelve.save c "mixer.toml" true = .ok out ∧
      load c "mixer.toml" (some out.toUTF8) = .ok twelve) ∧
    (greatest.check = .ok () ∧ ∃ out, greatest.save c "mixer.toml" true = .ok out ∧
      load c "mixer.toml" (some out.toUTF8) = .ok greatest) ∧
    ¬ ∃ out, ({ blockLength := 2 ^ 63 } : Settings).save c "mixer.toml" true = .ok out := by
  intro c given twelve greatest
  obtain ⟨hsettings, hparsed⟩ := save_load TomlCodec.lawful_plain
  have hgiven : parse c given = .ok twelve := by decide +kernel
  obtain ⟨-, hsaved⟩ := hparsed given twelve hgiven
  obtain ⟨out, hout, hload⟩ := hsaved "mixer.toml"
  have hcheck : greatest.check = .ok () := by decide +kernel
  obtain ⟨hwritten, hread⟩ := hsettings greatest "mixer.toml"
  obtain ⟨out', hout'⟩ := hwritten.mpr (by decide)
  refine ⟨TomlCodec.lawful_plain, ⟨hgiven, out, hout, hload _⟩,
    ⟨hcheck, out', hout', hread out' hout' hcheck _⟩, ?_⟩
  rw [(hsettings _ _).1]
  decide

end MixerRouting.Settings
