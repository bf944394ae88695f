import MixerRouting.Proofs.Number.ReadBack
import MixerRouting.Proofs.Rows
import MixerRouting.Proofs.Toml.Integers
import MixerRouting.Proofs.Toml.Laws
import MixerRouting.Proofs.Toml.Lines
import MixerRouting.Proofs.Toml.Numbers
import MixerRouting.Toml.Plain

/-!
# Plain texts keep to what is assumed

How a written number is read does not depend on the lines after its own, so a
table of numbers is read line by line. An integer is read back as it was, and a
finite number in double precision too: the decimal that is written for it is
nearest to it.
-/
namespace MixerRouting

namespace Toml

/-! ### Written numbers -/

/-- What a written number is read as, on whatever line it stands. -/
structure ReadsAs (written : List Char) (found : Option TomlValue) : Prop where
  starts : ∃ c more, written = c :: more ∧ isBlank c = false
  reads : ∀ fuel rest, readValue (fuel + 1) maxDepth (written ++ '\n' :: rest) =
    found.map fun v => (v, '\n' :: rest)

theorem readsAs_size {n : Nat} (hn : (n : Int) ≤ maxInteger) :
    ReadsAs (toString n).toList (some (.integer n)) where
  starts := by
    obtain ⟨c, more, hrow, hc⟩ := exists_lead false n []
    rw [Digit.toList_toString]
    exact ⟨c, more, (List.append_nil _).symm.trans hrow, hc⟩
  reads fuel rest := by
    rw [Digit.toList_toString]
    exact (readValue_append .newline fuel _ false n rest).trans (readPlain_integer hn rest)

theorem readsAs_finite (negative : Bool) (units : Nat) (scale : Int) :
    ReadsAs (numberStyle.text .double (.finite negative units scale)).toList
      (float? (numberStyle.numeral .double negative units scale)) := by
  obtain ⟨hfraction, hexponent⟩ :=
    NumberStyle.numeral_plain (rfl : numberStyle.plain = none) rfl .double negative units scale
  have hchars := numeral_chars_append hfraction hexponent
  rw [NumberStyle.text, Numeral.text, String.toList_ofList]
  constructor
  · obtain ⟨c, more, hrow, hc⟩ :=
      exists_lead (numberStyle.numeral .double negative units scale).negative _ _
    exact ⟨c, more, (List.append_nil _).symm.trans ((hchars []).trans hrow), hc⟩
  · intro fuel rest
    have hread := readPlain_numeral hfraction hexponent rest
    rw [hchars] at hread ⊢
    rw [readValue_append .point]
    exact hread

theorem readsAs_infinite (negative : Bool) :
    ReadsAs (numberStyle.text .double (.infinite negative)).toList
      (some (.float (.infinite negative))) := by
  cases negative with
  | true =>
    refine ⟨⟨'-', _, rfl, rfl⟩, fun fuel rest => ?_⟩
    simp [NumberStyle.text, readValue, startsDate, startsTime, readNumber, readSign]
  | false =>
    refine ⟨⟨'i', _, rfl, rfl⟩, fun fuel rest => ?_⟩
    simp [NumberStyle.text, readValue, startsDate, startsTime, readNumber, readSign]

theorem readsAs_nan :
    ReadsAs (numberStyle.text .double .nan).toList (some (.float .nan)) := by
  refine ⟨⟨'n', _, rfl, rfl⟩, fun fuel rest => ?_⟩
  simp [NumberStyle.text, numberStyle, readValue, startsDate, startsTime, readNumber, readSign]

theorem exists_readsAs {number : TomlNumber} {text : String} (h : numberText? number = some text) :
    ∃ found, ReadsAs text.toList found := by
  cases number with
  | size n =>
    rw [numberText?] at h
    split at h
    next hn =>
      cases h
      exact ⟨_, readsAs_size hn⟩
    next => cases h
  | double v =>
    cases h
    cases v with
    | nan => exact ⟨_, readsAs_nan⟩
    | infinite negative => exact ⟨_, readsAs_infinite negative⟩
    | finite negative units scale => exact ⟨_, readsAs_finite negative units scale⟩

theorem ReadsAs.value?_eq {text : String} {found : Option TomlValue}
    (h : ReadsAs text.toList found) : value? text = found := by
  rw [value?, h.reads (2 * text.length + 1) []]
  cases found <;> rfl

/-! ### Lines -/

theorem isBare_of_isAlphanum {c : Char} (h : (c.isAlphanum || c = '-' || c = '_') = true) :
    isBare c = true := by
  have hupper : c.isUpper = ('A' ≤ c && c ≤ 'Z') := Bool.decide_and ('A' ≤ c) (c ≤ 'Z')
  have hlower : c.isLower = ('a' ≤ c && c ≤ 'z') := rfl
  have hkinds : c.isAlphanum = ((c.isUpper || c.isLower) || ('0' ≤ c && c ≤ '9')) := rfl
  rw [hkinds, Bool.or_comm c.isUpper, hupper, hlower] at h
  exact h

/-- A line that is written is one that can be read, if the number on it can. -/
theorem exists_entry {field : String × TomlNumber} {line : String} {read : String × TomlValue}
    (hbare : TomlCodec.isBareKey field.1 = true) (hline : line? field = some line)
    (hread : TomlCodec.plain.reread? field = some read) :
    ∃ e : Entry, e.Readable ∧ e.chars = line.toList ∧ e.field = read ∧ read.1 = field.1 := by
  obtain ⟨text, htext, rfl⟩ := Option.map_eq_some_iff.mp hline
  obtain ⟨found, hfound⟩ := exists_readsAs htext
  have hvalue : (numberText? field.2).bind value? = found := by
    rw [htext, Option.bind_some, hfound.value?_eq]
  obtain ⟨v, hv, rfl⟩ := Option.map_eq_some_iff.mp hread
  obtain rfl : found = some v := hvalue.symm.trans hv
  rw [TomlCodec.isBareKey, Bool.and_eq_true, Bool.not_eq_true'] at hbare
  refine ⟨⟨field.1.toList, text.toList, v⟩, ⟨?_, ?_, hfound.starts, hfound.reads⟩, ?_, ?_, rfl⟩
  · intro c hc
    exact isBare_of_isAlphanum (List.all_eq_true.mp hbare.2 c hc)
  · exact List.isEmpty_eq_false_iff.mp hbare.1
  · simp [Entry.chars]
  · exact Prod.ext String.ofList_toList rfl

theorem exists_entries {fields : List (String × TomlNumber)} {lines : List String}
    {read : List (String × TomlValue)}
    (hbare : ∀ field ∈ fields, TomlCodec.isBareKey field.1 = true)
    (hlines : List.Forall₂ (fun field line => line? field = some line) fields lines)
    (hread : List.Forall₂ (fun field v => TomlCodec.plain.reread? field = some v) fields read) :
    ∃ entries : List Entry, (∀ e ∈ entries, e.Readable) ∧
      entries.flatMap Entry.chars = lines.flatMap String.toList ∧
      entries.map Entry.field = read ∧ read.map Prod.fst = fields.map Prod.fst := by
  induction hlines generalizing read with
  | nil =>
    cases hread
    exact ⟨[], nofun, rfl, rfl, rfl⟩
  | cons hline _ ih =>
    obtain ⟨hfirst, hrest⟩ := List.forall_mem_cons.mp hbare
    cases hread with
    | cons hfound hmore =>
      obtain ⟨e, he, hchars, hfield, hkey⟩ := exists_entry hfirst hline hfound
      obtain ⟨entries, hentries, htext, hfields, hkeys⟩ := ih hrest hmore
      refine ⟨e :: entries, List.forall_mem_cons.mpr ⟨he, hentries⟩, ?_, ?_, ?_⟩
      · rw [List.flatMap_cons, List.flatMap_cons, hchars, htext]
      · rw [List.map_cons, hfield, hfields]
      · rw [List.map_cons, List.map_cons, hkey, hkeys]

end Toml

namespace TomlCodec

theorem coe_maxSize : (maxSize : Int) = Toml.maxInteger := rfl

theorem numberText?_plain (n : Nat) :
    plain.numberText? (.size n) = if n ≤ maxSize then some (toString n) else none := by
  have hiff : (n : Int) ≤ Toml.maxInteger ↔ n ≤ maxSize := by
    rw [← coe_maxSize]
    exact Int.ofNat_le
  simp only [plain, Toml.numberText?, hiff]

theorem parse?_plain {fields : List (String × TomlNumber)} {lines : List String}
    {read : List (String × TomlValue)} (h : Plain fields)
    (hlines : fields.mapM plain.line? = some lines)
    (hread : fields.mapM plain.reread? = some read) :
    plain.parse? (String.join lines) = some read := by
  obtain ⟨entries, hreadable, htext, hfields, hkeys⟩ :=
    Toml.exists_entries h.bare (Row.mapM_eq_some_iff.mp hlines) (Row.mapM_eq_some_iff.mp hread)
  have hjoin : String.join lines = String.ofList (entries.flatMap Toml.Entry.chars) := by
    rw [htext, ← String.toList_inj, String.toList_join, String.toList_ofList]
  have hnodup : ((entries.map Toml.Entry.field).map Prod.fst).Nodup := by
    rw [hfields, hkeys]
    exact h.keys
  rw [hjoin, ← hfields]
  exact Toml.parse?_ofList hreadable hnodup

theorem value?_plain_double {units : Nat} {scale : Int}
    (h : FloatFormat.double.Holds units scale) (negative : Bool) :
    (plain.numberText? (.double (.finite negative units scale))).bind plain.value? =
      some (.float (.finite negative units scale)) := by
  have hnearest := NumberStyle.nearest_numeral (rfl : Toml.numberStyle.plain = none) rfl h negative
  have hvalue := (Toml.readsAs_finite negative units scale).value?_eq
  rw [Toml.float?, hnearest] at hvalue
  exact hvalue

theorem size?_plain_eq_some_iff (v : TomlValue) (n : Nat) :
    plain.size? v = some n ↔ v = .integer n := by
  cases v with
  | integer i =>
    simp only [plain, Toml.size?, TomlValue.integer.injEq]
    split
    · simp only [Option.some.injEq]
      omega
    · simp only [reduceCtorEq, false_iff]
      omega
  | _ => exact iff_of_false nofun nofun

theorem lawful_plain : plain.Lawful where
  print?_eq _ _ := rfl
  numberText?_size := numberText?_plain
  numberText?_double _ := rfl
  parse?_lines _ _ _ h hlines hread := parse?_plain h hlines hread
  value?_size _ hn := (Toml.readsAs_size (Int.ofNat_le.mpr hn)).value?_eq
  le_maxSize _ _ _ i hfields hmem := (Toml.inRange_of_parse? hfields _ hmem i rfl).2
  value?_double negative _ _ h := value?_plain_double h negative
  size?_eq_some_iff := size?_plain_eq_some_iff
  single?_float _ := rfl

end TomlCodec

end MixerRouting
