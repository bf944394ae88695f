import MixerRouting.Toml.Reader

/-!
# Lines of a settings text

A text with one line for each key, the key and its value around an equals sign,
is read as the row of these keys and values, whatever the values are: all that
is asked of a value is that the reader takes it up to the end of its line.
-/
namespace MixerRouting.Toml

/-- A line of a settings text: a key without quotes, how its value is written, and the value. -/
structure Entry where
  key : List Char
  written : List Char
  value : TomlValue

namespace Entry

def chars (e : Entry) : List Char := e.key ++ ' ' :: '=' :: ' ' :: (e.written ++ ['\n'])

def field (e : Entry) : String × TomlValue := (String.ofList e.key, e.value)

def pair (e : Entry) : List String × TomlValue := ([String.ofList e.key], e.value)

/-- Whether the line can be read: its key is bare and its value starts at once and ends with the
line. -/
structure Readable (e : Entry) : Prop where
  bare : ∀ c ∈ e.key, isBare c = true
  key_ne_nil : e.key ≠ []
  starts : ∃ c more, e.written = c :: more ∧ isBlank c = false
  reads : ∀ fuel rest,
    readValue (fuel + 1) maxDepth (e.written ++ '\n' :: rest) = some (e.value, '\n' :: rest)

end Entry

variable {e : Entry}

theorem skipBlanks_cons {c : Char} (h : isBlank c = false) (s : List Char) :
    skipBlanks (c :: s) = c :: s := by
  rw [skipBlanks, List.dropWhile_cons_of_neg (by simp [h])]

/-- No bare key starts with a character that means something else at the start of a line. -/
theorem ne_of_isBare {c c' : Char} (h : isBare c = true) (h' : isBare c' = false) : c ≠ c' := by
  rintro rfl
  rw [h] at h'
  cases h'

theorem isBlank_of_isBare {c : Char} (h : isBare c = true) : isBlank c = false := by
  have hspace : c ≠ ' ' := ne_of_isBare h (by decide)
  have htab : c ≠ '\t' := ne_of_isBare h (by decide)
  simp [isBlank, hspace, htab]

theorem readKeyPart_append (h : e.Readable) (rest : List Char) :
    readKeyPart (e.key ++ ' ' :: rest) = some (String.ofList e.key, ' ' :: rest) := by
  obtain ⟨lead, more, hkey⟩ := List.exists_cons_of_ne_nil h.key_ne_nil
  have hlead : isBare lead = true := h.bare lead (by simp [hkey])
  have htake : (e.key ++ ' ' :: rest).takeWhile isBare = e.key := by
    rw [List.takeWhile_append_of_pos h.bare, List.takeWhile_cons_of_neg (by decide),
      List.append_nil]
  have hdrop : (e.key ++ ' ' :: rest).dropWhile isBare = ' ' :: rest := by
    rw [List.dropWhile_append_of_pos h.bare, List.dropWhile_cons_of_neg (by decide)]
  have hquotes : lead ≠ '"' ∧ lead ≠ '\x27' :=
    ⟨ne_of_isBare hlead (by decide), ne_of_isBare hlead (by decide)⟩
  rw [hkey, List.cons_append] at htake hdrop ⊢
  simp [readKeyPart, hquotes, htake, hdrop]

theorem skipBlanks_key (h : e.Readable) (rest : List Char) :
    skipBlanks (e.key ++ rest) = e.key ++ rest := by
  obtain ⟨lead, more, hkey⟩ := List.exists_cons_of_ne_nil h.key_ne_nil
  have hlead : isBare lead = true := h.bare lead (by simp [hkey])
  rw [hkey, List.cons_append, skipBlanks_cons (isBlank_of_isBare hlead)]

theorem readKey_append (h : e.Readable) (parts : Nat) (rest : List Char) :
    readKey (parts + 1) (e.key ++ ' ' :: '=' :: rest) =
      some ([String.ofList e.key], '=' :: rest) := by
  have hblank : skipBlanks (' ' :: '=' :: rest) = '=' :: rest := rfl
  rw [readKey, skipBlanks_key h, readKeyPart_append h]
  simp [hblank]

theorem readLine_append (h : e.Readable) (rest : List Char) :
    readLine (e.chars ++ rest) = some (.pair [String.ofList e.key] e.value, rest) := by
  obtain ⟨lead, more, hkey⟩ := List.exists_cons_of_ne_nil h.key_ne_nil
  have hlead : isBare lead = true := h.bare lead (by simp [hkey])
  have hmarks : lead ≠ '#' ∧ lead ≠ '\n' ∧ lead ≠ '\r' ∧ lead ≠ '[' :=
    ⟨ne_of_isBare hlead (by decide), ne_of_isBare hlead (by decide), ne_of_isBare hlead (by decide),
      ne_of_isBare hlead (by decide)⟩
  obtain ⟨first, tail, hwritten, hfirst⟩ := h.starts
  have hvalue : skipBlanks (' ' :: (e.written ++ '\n' :: rest)) = e.written ++ '\n' :: rest := by
    rw [hwritten]
    exact skipBlanks_cons hfirst (tail ++ '\n' :: rest)
  have hread : ∀ fuel, readValue (fuel + 2) maxDepth (e.written ++ '\n' :: rest) =
      some (e.value, '\n' :: rest) := fun fuel => h.reads (fuel + 1) rest
  have hend : endLine ('\n' :: rest) = some rest := rfl
  have hkeyRead : readKey maxDepth (e.key ++ ' ' :: '=' :: ' ' :: (e.written ++ '\n' :: rest)) =
      some ([String.ofList e.key], '=' :: ' ' :: (e.written ++ '\n' :: rest)) :=
    readKey_append h (maxDepth - 1) _
  have hchars : e.chars ++ rest = e.key ++ ' ' :: '=' :: ' ' :: (e.written ++ '\n' :: rest) := by
    simp [Entry.chars]
  rw [hchars, readLine, skipBlanks_key h]
  rw [hkey, List.cons_append] at hkeyRead ⊢
  simp [hmarks, hkeyRead, hvalue, hread, hend]

/-! ### Whole texts -/

variable {entries : List Entry}

theorem readLines_append (h : ∀ e ∈ entries, e.Readable) {fuel : Nat} (hf : entries.length ≤ fuel) :
    readLines fuel (entries.flatMap Entry.chars) =
      some (entries.map fun e => .pair [String.ofList e.key] e.value) := by
  induction entries generalizing fuel with
  | nil => cases fuel <;> rfl
  | cons e entries ih =>
    obtain ⟨he, hentries⟩ := List.forall_mem_cons.mp h
    obtain ⟨fuel, rfl⟩ := Nat.exists_eq_add_one_of_ne_zero (by simp at hf; omega : fuel ≠ 0)
    obtain ⟨lead, more, hkey⟩ := List.exists_cons_of_ne_nil he.key_ne_nil
    have hline := readLine_append he (entries.flatMap Entry.chars)
    have hrest := ih hentries (Nat.le_of_succ_le_succ hf)
    rw [List.flatMap_cons]
    rw [Entry.chars, hkey, List.cons_append, List.cons_append] at hline ⊢
    rw [readLines, hline]
    · simp [hrest, hkey]
    · exact List.cons_ne_nil _ _

theorem sections_pairs (entries : List Entry) :
    sections (entries.map fun e => .pair [String.ofList e.key] e.value) =
      (entries.map Entry.pair, []) := by
  induction entries with
  | nil => rfl
  | cons e entries ih => simp [sections, ih, Entry.pair]

namespace Node

/-- The fields of a table that holds values only. -/
def ofValues (fields : List (String × TomlValue)) : List (String × Node) :=
  fields.map fun field => (field.1, .value field.2)

theorem ofValues_concat (fields : List (String × TomlValue)) (key : String) (v : TomlValue) :
    ofValues (fields ++ [(key, v)]) = ofValues fields ++ [(key, .value v)] := by
  simp [ofValues]

theorem toFields_ofValues (fields : List (String × TomlValue)) :
    toFields (ofValues fields) = fields := by
  induction fields with
  | nil => rfl
  | cons field fields ih =>
    show (field.1, field.2) :: toFields (ofValues fields) = field :: fields
    rw [ih]

theorem lookup_ofValues {fields : List (String × TomlValue)} {key : String}
    (h : key ∉ fields.map Prod.fst) : (ofValues fields).lookup key = none := by
  rw [List.lookup_eq_none_iff]
  intro field hfield
  obtain ⟨original, horiginal, rfl⟩ := List.mem_map.mp hfield
  rw [bne_iff_ne]
  rintro rfl
  exact h (List.mem_map_of_mem horiginal)

/-- A new key is entered behind the others. -/
theorem enter_key {fields : List (String × TomlValue)} {key : String}
    (h : key ∉ fields.map Prod.fst) (v : TomlValue) :
    (Node.table .header (ofValues fields)).enter [key] v =
      some (.table .header (ofValues (fields ++ [(key, v)]))) := by
  rw [ofValues_concat]
  simp [enter, within, find?, put, Node.fields, lookup_ofValues h]

theorem enterAll_pairs {fields : List (String × TomlValue)} {entries : List Entry}
    (h : (fields.map Prod.fst ++ (entries.map Entry.field).map Prod.fst).Nodup) :
    (Node.table .header (ofValues fields)).enterAll (entries.map Entry.pair) =
      some (.table .header (ofValues (fields ++ entries.map Entry.field))) := by
  induction entries generalizing fields with
  | nil => simp [enterAll]
  | cons e entries ih =>
    have hnew : String.ofList e.key ∉ fields.map Prod.fst := by
      intro hmem
      exact (List.nodup_append.mp h).2.2 _ hmem _ List.mem_cons_self rfl
    have hrest : ((fields ++ [e.field]).map Prod.fst ++
        (entries.map Entry.field).map Prod.fst).Nodup := by
      simpa using h
    have hentered := enter_key hnew e.value
    have hall := ih hrest
    rw [enterAll] at hall ⊢
    rw [List.map_cons, List.foldlM_cons, Entry.pair, hentered]
    simpa [Entry.field] using hall

end Node

theorem length_le_length_flatMap (entries : List Entry) :
    entries.length ≤ (entries.flatMap Entry.chars).length := by
  induction entries with
  | nil => exact Nat.le_refl 0
  | cons e entries ih =>
    simp only [List.length_cons, List.flatMap_cons, List.length_append, Entry.chars]
    omega

/-- A text of readable lines with different keys is read as its keys and values, in order. -/
theorem parse?_ofList (h : ∀ e ∈ entries, e.Readable)
    (hkeys : ((entries.map Entry.field).map Prod.fst).Nodup) :
    parse? (String.ofList (entries.flatMap Entry.chars)) = some (entries.map Entry.field) := by
  have hmark : ∀ rest, entries.flatMap Entry.chars ≠ '\ufeff' :: rest := by
    cases entries with
    | nil => exact fun rest => List.cons_ne_nil _ _ ∘ Eq.symm
    | cons e entries =>
      have he := (List.forall_mem_cons.mp h).1
      obtain ⟨lead, more, hkey⟩ := List.exists_cons_of_ne_nil he.key_ne_nil
      intro rest hstart
      have hlead : lead = '\ufeff' := by
        rw [List.flatMap_cons, Entry.chars, hkey] at hstart
        exact (List.cons.inj hstart).1
      have hbare := he.bare lead (by simp [hkey])
      rw [hlead] at hbare
      exact absurd hbare (by decide)
  have hlength : entries.length ≤ (entries.flatMap Entry.chars).length + 1 :=
    Nat.le_succ_of_le (length_le_length_flatMap entries)
  have hentered : (Node.table .header []).enterAll (entries.map Entry.pair) =
      some (.table .header (Node.ofValues (entries.map Entry.field))) := by
    have hnone : ([] : List (String × TomlValue)).map Prod.fst ++
        (entries.map Entry.field).map Prod.fst = (entries.map Entry.field).map Prod.fst := rfl
    exact Node.enterAll_pairs (hnone ▸ hkeys)
  unfold parse?
  rw [String.toList_ofList]
  dsimp only
  split
  next rest hstart => exact absurd hstart (hmark rest)
  next =>
    rw [readLines_append h hlength]
    simp [sections_pairs, hentered, Node.fields, Node.toFields_ofValues]

end MixerRouting.Toml
