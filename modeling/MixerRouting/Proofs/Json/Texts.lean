import MixerRouting.Json.Printer
import MixerRouting.Json.Reader
import MixerRouting.Proofs.Number.Digits

/-!
# Values are read back from their texts

The reader undoes the printer on every value: numerals of every form, strings
with every character, nested arrays and objects. What the reader leaves over
is what followed the value, so the proof goes through the printer's cases, and
fuel for every character of the text is enough.
-/
namespace MixerRouting.JsonValue

/-- What may follow a value in a printed text. -/
inductive Closes : List Char → Prop where
  | nothing : Closes []
  | comma (rest : List Char) : Closes (',' :: rest)
  | bracket (rest : List Char) : Closes (']' :: rest)
  | brace (rest : List Char) : Closes ('\x7d' :: rest)

/-! ### Numerals -/

theorem readDigits_append {rest : List Char} (h : Digit.span rest = ([], rest))
    {digits : List Digit} (hd : digits ≠ []) :
    readDigits (digits.map Digit.char ++ rest) = some (digits, rest) := by
  obtain ⟨lead, digits, rfl⟩ := List.exists_cons_of_ne_nil hd
  rw [readDigits, Digit.span_append h]

theorem readWhole_append {rest : List Char} (h : Digit.span rest = ([], rest)) (n : Nat) :
    readWhole ((Digit.ofNat n).map Digit.char ++ rest) = some (n, rest) := by
  by_cases hn : n = 0
  · subst hn
    have hzero : (Digit.ofNat 0).map Digit.char = ['0'] := rfl
    rw [hzero, List.singleton_append, readWhole, h]
  · obtain ⟨lead, digits, hrow, hlead⟩ := Digit.ofNat_eq_cons hn
    have hchar : Digit.char lead ≠ '0' := fun hc => hlead ((Digit.char_eq_zero_iff lead).mp hc)
    have hread := readDigits_append h (Digit.ofNat_ne_nil n)
    rw [hrow, List.map_cons, List.cons_append] at hread ⊢
    simp [readWhole, hchar, hread, ← hrow]

theorem span_exponentChars {rest : List Char} (h : Closes rest) (e : Option Int) :
    Digit.span (Numeral.exponentChars e ++ rest) = ([], Numeral.exponentChars e ++ rest) := by
  rcases e with _ | e | e
  · cases h <;> rfl
  · rfl
  · rfl

theorem readExponent_append {rest : List Char} (h : Closes rest) (e : Option Int) :
    readExponent (Numeral.exponentChars e ++ rest) = some (e, rest) := by
  have hspan := span_exponentChars h none
  have hdigits := fun n => readDigits_append hspan (Digit.ofNat_ne_nil n)
  rw [Numeral.exponentChars, List.nil_append] at hdigits
  rcases e with _ | e | e
  · cases h <;> rfl
  · simp [Numeral.exponentChars, readExponent, readPower, hdigits]
  · simp [Numeral.exponentChars, readExponent, readPower, hdigits, Int.negSucc_eq]

/-- The characters of the digits behind the point, with the point. -/
def pointChars (digits : List Digit) : List Char :=
  if digits.isEmpty then [] else '.' :: digits.map Digit.char

theorem span_pointChars {rest : List Char} (h : Closes rest) (digits : List Digit)
    (e : Option Int) :
    let behind := pointChars digits ++ (Numeral.exponentChars e ++ rest)
    Digit.span behind = ([], behind) := by
  cases digits with
  | nil => exact span_exponentChars h e
  | cons d digits => rfl

theorem readFraction_append {rest : List Char} (h : Closes rest) (digits : List Digit)
    (e : Option Int) :
    readFraction (pointChars digits ++ (Numeral.exponentChars e ++ rest)) =
      some (digits, Numeral.exponentChars e ++ rest) := by
  cases digits with
  | nil => rcases e with _ | e | e <;> cases h <;> rfl
  | cons d digits =>
    have hread := readDigits_append (span_exponentChars h e) (List.cons_ne_nil d digits)
    simpa [pointChars, readFraction] using hread

theorem numeral_chars_append (n : Numeral) (rest : List Char) :
    n.chars ++ rest = (if n.negative then ['-'] else []) ++ ((Digit.ofNat n.whole).map Digit.char
      ++ (pointChars n.fraction ++ (Numeral.exponentChars n.exponent ++ rest))) := by
  simp only [Numeral.chars, pointChars, List.append_assoc]

theorem readNumeral_append (n : Numeral) {rest : List Char} (h : Closes rest) :
    readNumeral (n.chars ++ rest) = some (n, rest) := by
  have hwhole := readWhole_append (span_pointChars h n.fraction n.exponent) n.whole
  have hfraction := readFraction_append h n.fraction n.exponent
  have hexponent := readExponent_append h n.exponent
  rw [numeral_chars_append]
  obtain ⟨negative, whole, fraction, exponent⟩ := n
  cases negative with
  | true => simp [readNumeral, hwhole, hfraction, hexponent]
  | false =>
    obtain ⟨lead, digits, hrow⟩ := List.exists_cons_of_ne_nil (Digit.ofNat_ne_nil whole)
    have hsign : ∀ d : Digit, Digit.char d ≠ '-' := by decide
    rw [hrow, List.map_cons, List.cons_append] at hwhole ⊢
    simp [readNumeral, hsign, hwhole, hfraction, hexponent]

/-! ### Strings -/

theorem readPieces_plain {c : Char} (hquote : c ≠ '"') (hslash : c ≠ '\\')
    (hc : 0x20 ≤ c.toNat) (rest : List Char) :
    readPieces (c :: rest) = (readPieces rest).map fun (ps, rest) => (.char c :: ps, rest) := by
  simp [readPieces, guard, hslash, hc, Option.map_eq_bind]

theorem readPieces_simple {e c : Char} (he : simpleEscape? e = some c) (rest : List Char) :
    readPieces ('\\' :: e :: rest) =
      (readPieces rest).map fun (ps, rest) => (.char c :: ps, rest) := by
  have hu : e ≠ 'u' := by
    rintro rfl
    cases he
  simp [readPieces, hu, he, Option.map_eq_bind]

/-- Numeric escapes are printed only for characters below the blank. -/
theorem readPieces_unit {n : Nat} (hn : n < 0x20) (rest : List Char) :
    readPieces ('\\' :: 'u' :: '0' :: '0' :: Hex.char (n / 16) :: Hex.char (n % 16) :: rest) =
      (readPieces rest).map fun (ps, rest) => (.unit n :: ps, rest) := by
  have hnumber : ∀ n < 0x20, Hex.number? ['0', '0', Hex.char (n / 16), Hex.char (n % 16)] =
      some n := by decide
  rw [readPieces, hnumber n hn]
  simp [Option.map_eq_bind]

/-- The piece that a printed character is read as: control characters without an escape of their
own come back as numeric escapes. -/
def pieceOf (c : Char) : Piece :=
  if 0x20 ≤ c.toNat ∨ c.toNat = 0x08 ∨ c.toNat = 0x0c ∨ c = '\n' ∨ c = '\r' ∨ c = '\t' then .char c
  else .unit c.toNat

theorem readPieces_escape (c : Char) (rest : List Char) :
    readPieces (escape c ++ rest) =
      (readPieces rest).map fun (pieces, rest) => (pieceOf c :: pieces, rest) := by
  have hchar : ∀ n, c.toNat = n → c = Char.ofNat n := fun n h => h ▸ (Char.ofNat_toNat c).symm
  unfold escape
  split
  next h => subst h; exact readPieces_simple rfl rest
  split
  next h => subst h; exact readPieces_simple rfl rest
  split
  next hquote hslash h =>
    rw [pieceOf, if_pos (.inl h)]
    exact readPieces_plain hquote hslash h rest
  split
  next h => rw [hchar _ h]; exact readPieces_simple rfl rest
  split
  next h => rw [hchar _ h]; exact readPieces_simple rfl rest
  split
  next h => subst h; exact readPieces_simple rfl rest
  split
  next h => subst h; exact readPieces_simple rfl rest
  split
  next h => subst h; exact readPieces_simple rfl rest
  next hlow hb hf hn hr ht =>
    rw [pieceOf, if_neg (by simp [hlow, hb, hf, hn, hr, ht])]
    exact readPieces_unit (Nat.lt_of_not_le hlow) rest

theorem spell_pieceOf (c : Char) (pieces : List Piece) :
    spell (pieceOf c :: pieces) = (spell pieces).map (c :: ·) := by
  unfold pieceOf
  split
  · rfl
  next hc =>
    have hlow : c.toNat < 0x20 := by omega
    have hsurrogate : isHighSurrogate c.toNat = false ∧ isLowSurrogate c.toNat = false := by
      simp [isHighSurrogate, isLowSurrogate]
      omega
    rcases pieces with _ | ⟨c' | n, pieces⟩ <;> simp [spell, hsurrogate]

theorem readPieces_append (s : List Char) (rest : List Char) :
    readPieces (s.flatMap escape ++ '"' :: rest) = some (s.map pieceOf, rest) := by
  induction s with
  | nil => rfl
  | cons c s ih =>
    rw [List.flatMap_cons, List.append_assoc, readPieces_escape, ih]
    rfl

theorem spell_map_pieceOf (s : List Char) : spell (s.map pieceOf) = some s := by
  induction s with
  | nil => rfl
  | cons c s ih => rw [List.map_cons, spell_pieceOf, ih, Option.map_some]

/-- A printed string is a quote and what the reader of strings reads. -/
theorem exists_textChars (s : Option String) :
    ∃ body, textChars s = '"' :: body ∧ ∀ rest, readText (body ++ rest) = some (s, rest) := by
  cases s with
  | none => exact ⟨_, rfl, fun rest => rfl⟩
  | some s =>
    refine ⟨s.toList.flatMap escape ++ ['"'], rfl, fun rest => ?_⟩
    rw [readText, List.append_assoc, List.singleton_append, readPieces_append]
    simp [spell_map_pieceOf]

/-! ### Values -/

theorem skipBlanks_cons {c : Char} (h : isBlank c = false) (s : List Char) :
    skipBlanks (c :: s) = c :: s := by
  rw [skipBlanks, List.dropWhile_cons_of_neg (by simp [h])]

/-- Whether a numeral may start with the character. -/
def startsNumeral (c : Char) : Bool := c = '-' || (Digit.ofChar? c).isSome

theorem exists_numeral_chars (n : Numeral) : ∃ c s, n.chars = c :: s ∧ startsNumeral c = true := by
  obtain ⟨lead, digits, hrow⟩ := List.exists_cons_of_ne_nil (Digit.ofNat_ne_nil n.whole)
  rw [← List.append_nil n.chars, numeral_chars_append, hrow]
  cases n.negative with
  | true => exact ⟨'-', _, rfl, rfl⟩
  | false => exact ⟨Digit.char lead, _, rfl, by simp [startsNumeral]⟩

theorem ne_of_startsNumeral {c c' : Char} (h : startsNumeral c = true)
    (h' : startsNumeral c' = false) : c ≠ c' := by
  rintro rfl
  rw [h] at h'
  cases h'

theorem isBlank_of_startsNumeral {c : Char} (h : startsNumeral c = true) : isBlank c = false := by
  have hne : ∀ c', startsNumeral c' = false → c ≠ c' := fun c' => ne_of_startsNumeral h
  simp [isBlank, hne ' ' rfl, hne '\n' rfl, hne '\t' rfl, hne '\r' rfl]

theorem readValue_of_startsNumeral {c : Char} (h : startsNumeral c = true) (fuel : Nat)
    (s : List Char) :
    readValue (fuel + 1) (c :: s) =
      (readNumeral (c :: s)).map fun (n, rest) => (.number n, rest) := by
  rw [readValue, skipBlanks_cons (isBlank_of_startsNumeral h)]
  split <;> first | rfl | cases ‹_ = _›; exact absurd h (by decide)

/-- No value starts with a blank or with the bracket that ends an array. -/
theorem exists_chars (v : JsonValue) :
    ∃ c s, chars v = c :: s ∧ isBlank c = false ∧ c ≠ ']' := by
  rcases v with _ | (_ | _) | n | s | items | fields
  · exact ⟨_, _, rfl, rfl, by decide⟩
  · exact ⟨_, _, rfl, rfl, by decide⟩
  · exact ⟨_, _, rfl, rfl, by decide⟩
  · obtain ⟨c, s, hc, h⟩ := exists_numeral_chars n
    exact ⟨c, s, hc, isBlank_of_startsNumeral h, ne_of_startsNumeral h rfl⟩
  · obtain ⟨body, hbody, -⟩ := exists_textChars s
    exact ⟨'"', body, hbody, rfl, by decide⟩
  · exact ⟨_, _, rfl, rfl, by decide⟩
  · exact ⟨_, _, rfl, rfl, by decide⟩

theorem length_chars_pos (v : JsonValue) : 0 < (chars v).length := by
  obtain ⟨c, s, hc, -⟩ := exists_chars v
  simp [hc]

theorem exists_itemChars (v : JsonValue) (items : List JsonValue) :
    ∃ c s, itemChars (v :: items) = c :: s ∧ isBlank c = false ∧ c ≠ ']' := by
  obtain ⟨c, s, hc, h⟩ := exists_chars v
  cases items <;> exact ⟨c, _, by rw [itemChars, hc, List.cons_append], h⟩

theorem exists_fieldChars (field : Option String × JsonValue)
    (fields : List (Option String × JsonValue)) :
    ∃ s, fieldChars (field :: fields) = '"' :: s := by
  obtain ⟨body, hbody, -⟩ := exists_textChars field.1
  cases fields <;> exact ⟨_, by rw [fieldChars, hbody, List.cons_append]; rfl⟩

theorem readValue_array {fuel : Nat} {v : JsonValue} {items : List JsonValue} {rest : List Char}
    (h : readItems fuel (itemChars (v :: items) ++ rest) = some (v :: items, rest)) :
    readValue (fuel + 1) (chars (.array (v :: items)) ++ rest) =
      some (.array (v :: items), rest) := by
  obtain ⟨c, s, hc, hblank, hbracket⟩ := exists_itemChars v items
  rw [hc, List.cons_append] at h
  rw [chars, hc, List.cons_append, List.cons_append, readValue, skipBlanks_cons rfl]
  simp [skipBlanks_cons hblank, hbracket, h]

theorem readValue_object {fuel : Nat} {field : Option String × JsonValue}
    {fields : List (Option String × JsonValue)} {rest : List Char}
    (h : readFields fuel (fieldChars (field :: fields) ++ rest) = some (field :: fields, rest)) :
    readValue (fuel + 1) (chars (.object (field :: fields)) ++ rest) =
      some (.object (field :: fields), rest) := by
  obtain ⟨s, hs⟩ := exists_fieldChars field fields
  rw [hs, List.cons_append] at h
  rw [chars, hs, List.cons_append, List.cons_append, readValue, skipBlanks_cons rfl]
  simp [skipBlanks_cons (show isBlank '"' = false from rfl), h]

theorem readItems_one {fuel : Nat} {v : JsonValue} {rest : List Char}
    (h : readValue fuel (chars v ++ ']' :: rest) = some (v, ']' :: rest)) :
    readItems (fuel + 1) (itemChars [v] ++ rest) = some ([v], rest) := by
  rw [itemChars, List.append_assoc, List.singleton_append, readItems, h]
  rfl

theorem readItems_more {fuel : Nat} {v w : JsonValue} {items : List JsonValue} {rest : List Char}
    (h : readValue fuel (chars v ++ ',' :: (itemChars (w :: items) ++ rest)) =
      some (v, ',' :: (itemChars (w :: items) ++ rest)))
    (hitems : readItems fuel (itemChars (w :: items) ++ rest) = some (w :: items, rest)) :
    readItems (fuel + 1) (itemChars (v :: w :: items) ++ rest) = some (v :: w :: items, rest) := by
  rw [itemChars, List.append_assoc, List.cons_append, readItems, h]
  simp [skipBlanks_cons (show isBlank ',' = false from rfl), hitems]

theorem readFields_one {fuel : Nat} {v : JsonValue} {rest : List Char}
    (h : readValue fuel (chars v ++ '\x7d' :: rest) = some (v, '\x7d' :: rest))
    (name : Option String) :
    readFields (fuel + 1) (fieldChars [(name, v)] ++ rest) = some ([(name, v)], rest) := by
  obtain ⟨body, hbody, hread⟩ := exists_textChars name
  rw [fieldChars, hbody, readFields]
  simp [skipBlanks_cons (show isBlank '"' = false from rfl),
    skipBlanks_cons (show isBlank ':' = false from rfl),
    skipBlanks_cons (show isBlank '\x7d' = false from rfl), hread, h]

theorem readFields_more {fuel : Nat} {v : JsonValue} {field : Option String × JsonValue}
    {fields : List (Option String × JsonValue)} {rest : List Char}
    (h : readValue fuel (chars v ++ ',' :: (fieldChars (field :: fields) ++ rest)) =
      some (v, ',' :: (fieldChars (field :: fields) ++ rest)))
    (hfields : readFields fuel (fieldChars (field :: fields) ++ rest) =
      some (field :: fields, rest)) (name : Option String) :
    readFields (fuel + 1) (fieldChars ((name, v) :: field :: fields) ++ rest) =
      some ((name, v) :: field :: fields, rest) := by
  obtain ⟨body, hbody, hread⟩ := exists_textChars name
  rw [fieldChars, hbody, readFields]
  simp [skipBlanks_cons (show isBlank '"' = false from rfl),
    skipBlanks_cons (show isBlank ':' = false from rfl),
    skipBlanks_cons (show isBlank ',' = false from rfl), hread, h, hfields]

-- The induction is on the fuel, as the reader's recursion is: a nested value is read with less of
-- it, and its text is shorter by a bracket, a comma or a colon at least.
mutual

theorem readValue_append {fuel : Nat} (v : JsonValue) {rest : List Char}
    (hf : (chars v).length ≤ fuel) (h : Closes rest) :
    readValue fuel (chars v ++ rest) = some (v, rest) := by
  match fuel, v with
  | 0, v => exact absurd (length_chars_pos v) (by omega)
  | fuel + 1, .null => rfl
  | fuel + 1, .bool true => rfl
  | fuel + 1, .bool false => rfl
  | fuel + 1, .number n =>
    obtain ⟨c, s, hc, hstarts⟩ := exists_numeral_chars n
    have hread := readNumeral_append n h
    rw [hc, List.cons_append] at hread
    rw [chars, hc, List.cons_append, readValue_of_startsNumeral hstarts, hread, Option.map_some]
  | fuel + 1, .text s =>
    obtain ⟨body, hbody, hread⟩ := exists_textChars s
    rw [chars, hbody, List.cons_append, readValue, skipBlanks_cons rfl]
    simp [hread]
  | fuel + 1, .array [] => rfl
  | fuel + 1, .object [] => rfl
  | fuel + 1, .array (w :: items) =>
    rw [chars, List.length_cons] at hf
    exact readValue_array (readItems_append w items (by omega))
  | fuel + 1, .object ((name, w) :: fields) =>
    rw [chars, List.length_cons] at hf
    exact readValue_object (readFields_append name w fields (by omega))

theorem readItems_append {fuel : Nat} (v : JsonValue) (items : List JsonValue)
    {rest : List Char} (hf : (itemChars (v :: items)).length ≤ fuel) :
    readItems fuel (itemChars (v :: items) ++ rest) = some (v :: items, rest) := by
  match fuel, items with
  | 0, [] => simp [itemChars] at hf
  | 0, w :: items => simp [itemChars] at hf
  | fuel + 1, [] =>
    rw [itemChars, List.length_append, List.length_singleton] at hf
    exact readItems_one (readValue_append v (by omega) (.bracket rest))
  | fuel + 1, w :: items =>
    have hpos := length_chars_pos v
    rw [itemChars, List.length_append, List.length_cons] at hf
    exact readItems_more (readValue_append v (by omega) (.comma _))
      (readItems_append w items (by omega))

theorem readFields_append {fuel : Nat} (name : Option String) (v : JsonValue)
    (fields : List (Option String × JsonValue)) {rest : List Char}
    (hf : (fieldChars ((name, v) :: fields)).length ≤ fuel) :
    readFields fuel (fieldChars ((name, v) :: fields) ++ rest) =
      some ((name, v) :: fields, rest) := by
  match fuel, fields with
  | 0, [] => simp [fieldChars] at hf
  | 0, field :: fields => simp [fieldChars] at hf
  | fuel + 1, [] =>
    simp only [fieldChars, List.length_append, List.length_cons] at hf
    exact readFields_one (readValue_append v (by omega) (.brace rest)) name
  | fuel + 1, (name', w) :: fields =>
    simp only [fieldChars, List.length_append, List.length_cons] at hf
    exact readFields_more (readValue_append v (by omega) (.comma _))
      (readFields_append name' w fields (by omega)) name

end

/-- Every value is what its text spells. -/
theorem parse?_render (v : JsonValue) : parse? (render v) = some v := by
  have hread : readValue (2 * (render v).length + 2) (chars v ++ []) = some (v, []) :=
    readValue_append v (by rw [render, String.length_ofList]; omega) .nothing
  rw [List.append_nil] at hread
  rw [parse?, render, String.toList_ofList, ← render, hread]
  rfl

end MixerRouting.JsonValue
