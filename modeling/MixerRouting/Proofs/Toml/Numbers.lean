import MixerRouting.Proofs.Number.Digits
import MixerRouting.Toml.Reader

/-!
# Numbers of a settings text

A number that is written without blanks, underscores and exponent is read back
up to the end of its line: digits as an integer, digits around a point as the
number of double precision that is nearest to them. The reader takes neither
for the start of a date or a time.
-/
namespace MixerRouting.Toml

/-- What ends a row of digits in a written number. -/
inductive EndsDigits : Char → Prop where
  | point : EndsDigits '.'
  | newline : EndsDigits '\n'

theorem digitBelow?_char : ∀ d : Digit, digitBelow? 10 (Digit.char d) = some d.val := by decide

theorem EndsDigits.digitBelow? {c : Char} (h : EndsDigits c) : Toml.digitBelow? 10 c = none := by
  cases h <;> decide

variable {c : Char}

theorem readMoreDigits_append (h : EndsDigits c) (digits : List Digit) (rest : List Char) :
    readMoreDigits (digitBelow? 10) (digits.map Digit.char ++ c :: rest) =
      some (digits.map Fin.val, c :: rest) := by
  have hnotLine : ∀ d : Digit, Digit.char d ≠ '_' := by decide
  induction digits with
  | nil => cases h <;> simp [readMoreDigits, digitBelow?, Hex.value?]
  | cons d digits ih => simp [readMoreDigits, hnotLine, digitBelow?_char, ih]

theorem readDecimal_append (h : EndsDigits c) {digits : List Digit} (hdigits : digits ≠ [])
    (rest : List Char) :
    readDecimal (digits.map Digit.char ++ c :: rest) = some (digits, c :: rest) := by
  obtain ⟨lead, digits, rfl⟩ := List.exists_cons_of_ne_nil hdigits
  have hlast : ∀ d : Digit, Digit.last d.val = d := by decide
  have hread : readGrouped (digitBelow? 10) ((lead :: digits).map Digit.char ++ c :: rest) =
      some ((lead :: digits).map Fin.val, c :: rest) := by
    simp [readGrouped, digitBelow?_char, readMoreDigits_append h]
  rw [readDecimal, hread]
  simp [hlast, Function.comp_def]

theorem readWhole_append (h : EndsDigits c) (n : Nat) (rest : List Char) :
    readWhole ((Digit.ofNat n).map Digit.char ++ c :: rest) = some (Digit.ofNat n, c :: rest) := by
  by_cases hn : n = 0
  · subst hn
    rfl
  · obtain ⟨lead, digits, hrow, hlead⟩ := Digit.ofNat_eq_cons hn
    have hchar : Digit.char lead ≠ '0' := fun hc => hlead ((Digit.char_eq_zero_iff lead).mp hc)
    have hread := readDecimal_append h (Digit.ofNat_ne_nil n) rest
    rw [hrow, List.map_cons, List.cons_append] at hread ⊢
    simp [readWhole, hchar, hread]

/-! ### Integers and numbers with a point -/

/-- The sign that a number is written with. -/
def signChars (negative : Bool) : List Char := if negative then ['-'] else []

theorem readSign_append (negative : Bool) (n : Nat) (rest : List Char) :
    readSign (signChars negative ++ ((Digit.ofNat n).map Digit.char ++ rest)) =
      (negative, (Digit.ofNat n).map Digit.char ++ rest) := by
  have hsigns : ∀ d : Digit, Digit.char d ≠ '-' ∧ Digit.char d ≠ '+' := by decide
  cases negative with
  | true => rfl
  | false =>
    obtain ⟨lead, digits, hrow⟩ := List.exists_cons_of_ne_nil (Digit.ofNat_ne_nil n)
    simp [signChars, hrow, readSign, hsigns lead]

theorem readPlain_integer {n : Nat} (hn : (n : Int) ≤ maxInteger) (rest : List Char) :
    readPlain ((Digit.ofNat n).map Digit.char ++ '\n' :: rest) =
      some (.integer n, '\n' :: rest) := by
  have hmin : minInteger ≤ (n : Int) := by
    simp only [minInteger]
    omega
  have hsign := readSign_append false n ('\n' :: rest)
  rw [signChars, if_neg Bool.false_ne_true, List.nil_append] at hsign
  simp [readPlain, hsign, readWhole_append .newline, integer?, hmin, hn]

theorem numeral_chars_append {n : Numeral} (hfraction : n.fraction ≠ [])
    (hexponent : n.exponent = none) (rest : List Char) :
    n.chars ++ rest = signChars n.negative ++ ((Digit.ofNat n.whole).map Digit.char ++
      '.' :: (n.fraction.map Digit.char ++ rest)) := by
  have hsome : n.fraction.isEmpty = false := by simpa using hfraction
  simp [Numeral.chars, signChars, hsome, hexponent, Numeral.exponentChars]

theorem readPlain_numeral {n : Numeral} (hfraction : n.fraction ≠ [])
    (hexponent : n.exponent = none) (rest : List Char) :
    readPlain (n.chars ++ '\n' :: rest) = (float? n).map fun v => (v, '\n' :: rest) := by
  obtain ⟨negative, whole, fraction, exponent⟩ := n
  cases hexponent
  rw [numeral_chars_append hfraction rfl]
  simp [readPlain, readSign_append, readWhole_append .point, readDecimal_append .newline hfraction,
    Option.map_eq_bind]

/-! ### Numbers as values -/

/-- A written number starts with a sign or a digit. -/
theorem exists_lead (negative : Bool) (n : Nat) (rest : List Char) :
    ∃ c more, signChars negative ++ ((Digit.ofNat n).map Digit.char ++ rest) = c :: more ∧
      isBlank c = false := by
  have hblank : ∀ d : Digit, isBlank (Digit.char d) = false := by decide
  obtain ⟨lead, digits, hrow⟩ := List.exists_cons_of_ne_nil (Digit.ofNat_ne_nil n)
  cases negative with
  | true => exact ⟨'-', _, rfl, rfl⟩
  | false => exact ⟨Digit.char lead, digits.map Digit.char ++ rest, by simp [signChars, hrow],
      hblank lead⟩

/-- After its sign a written number starts with a digit, and no letter follows that says in which
base the number is. -/
theorem exists_two_chars (h : EndsDigits c) (n : Nat) (rest : List Char) :
    ∃ (lead : Digit) (next : Char) (more : List Char),
      (Digit.ofNat n).map Digit.char ++ c :: rest = Digit.char lead :: next :: more ∧
        next ≠ 'x' ∧ next ≠ 'o' ∧ next ≠ 'b' := by
  have hletters : ∀ d : Digit, Digit.char d ≠ 'x' ∧ Digit.char d ≠ 'o' ∧ Digit.char d ≠ 'b' := by
    decide
  obtain ⟨lead, digits, hrow⟩ := List.exists_cons_of_ne_nil (Digit.ofNat_ne_nil n)
  rw [hrow]
  cases digits with
  | nil => exact ⟨lead, c, rest, rfl, by cases h <;> decide⟩
  | cons d digits => exact ⟨lead, Digit.char d, _, rfl, hletters d⟩

theorem readNumber_append (h : EndsDigits c) (negative : Bool) (n : Nat) (rest : List Char) :
    readNumber (signChars negative ++ ((Digit.ofNat n).map Digit.char ++ c :: rest)) =
      readPlain (signChars negative ++ ((Digit.ofNat n).map Digit.char ++ c :: rest)) := by
  have hletters : ∀ d : Digit, Digit.char d ≠ 'i' ∧ Digit.char d ≠ 'n' := by decide
  have hsign := readSign_append negative n (c :: rest)
  obtain ⟨lead, next, more, hrow, hnext⟩ := exists_two_chars h n rest
  rw [hrow] at hsign ⊢
  cases negative with
  | true =>
    rw [signChars, if_pos rfl, List.singleton_append] at hsign ⊢
    simp [readNumber, hsign, hletters]
  | false =>
    rw [signChars, if_neg Bool.false_ne_true, List.nil_append] at hsign ⊢
    simp [readNumber, hsign, hnext, hletters]

/-- Dates and times are told by a mark right behind a number of digits. A row of digits that ends
with another character has no such mark behind it. -/
theorem marked_eq_false {mark : Char} (hdigit : c.isDigit = false) (hmark : c ≠ mark)
    {front : List Char} (hfront : ∀ d ∈ front, d ≠ mark) (rest : List Char) (count : Nat) :
    (((front ++ c :: rest).take count).all Char.isDigit &&
      decide (((front ++ c :: rest).drop count).head? = some mark)) = false := by
  induction front generalizing count with
  | nil => cases count <;> simp [hdigit, hmark]
  | cons d front ih =>
    obtain ⟨hd, hfront⟩ := List.forall_mem_cons.mp hfront
    cases count with
    | zero => simp [hd]
    | succ count =>
      rw [List.cons_append, List.take_succ_cons, List.drop_succ_cons, List.all_cons,
        Bool.and_assoc, ih hfront, Bool.and_false]

theorem startsDate_append (h : EndsDigits c) (negative : Bool) (n : Nat) (rest : List Char) :
    startsDate (signChars negative ++ ((Digit.ofNat n).map Digit.char ++ c :: rest)) = false ∧
      startsTime (signChars negative ++ ((Digit.ofNat n).map Digit.char ++ c :: rest)) = false := by
  have hdigit : c.isDigit = false := by cases h <;> decide
  have hends : c ≠ '-' ∧ c ≠ ':' := by cases h <;> decide
  have hmarks : ∀ d ∈ (Digit.ofNat n).map Digit.char, d ≠ '-' ∧ d ≠ ':' := by
    have hall : ∀ d : Digit, Digit.char d ≠ '-' ∧ Digit.char d ≠ ':' := by decide
    exact List.forall_mem_map.mpr fun d _ => hall d
  cases negative with
  | true => constructor <;> simp [signChars, startsDate, startsTime]
  | false =>
    rw [signChars, if_neg Bool.false_ne_true, List.nil_append]
    constructor
    · rw [startsDate, Bool.and_assoc,
        marked_eq_false hdigit hends.1 (fun d hd => (hmarks d hd).1), Bool.and_false]
    · rw [startsTime, Bool.and_assoc,
        marked_eq_false hdigit hends.2 (fun d hd => (hmarks d hd).2), Bool.and_false]

/-- A value that starts as a written number does is read as a number. -/
theorem readValue_append (h : EndsDigits c) (fuel depth : Nat) (negative : Bool) (n : Nat)
    (rest : List Char) :
    readValue (fuel + 1) depth
        (signChars negative ++ ((Digit.ofNat n).map Digit.char ++ c :: rest)) =
      readPlain (signChars negative ++ ((Digit.ofNat n).map Digit.char ++ c :: rest)) := by
  obtain ⟨hdate, htime⟩ := startsDate_append h negative n rest
  rw [← readNumber_append h]
  obtain ⟨lead, next, more, hrow, -⟩ := exists_two_chars h n rest
  have hstarts : ∀ d : Digit, Digit.char d ≠ '"' ∧ Digit.char d ≠ '\x27' ∧ Digit.char d ≠ '[' ∧
      Digit.char d ≠ '\x7b' ∧ Digit.char d ≠ 't' ∧ Digit.char d ≠ 'f' := by decide
  rw [hrow] at hdate htime ⊢
  cases negative with
  | true =>
    rw [signChars, if_pos rfl, List.singleton_append] at hdate htime ⊢
    simp [readValue, hdate, htime]
  | false =>
    rw [signChars, if_neg Bool.false_ne_true, List.nil_append] at hdate htime ⊢
    simp [readValue, hdate, htime, hstarts]

end MixerRouting.Toml
