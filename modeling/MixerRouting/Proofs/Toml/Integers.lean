import MixerRouting.Toml.Reader

/-!
# Integers of a settings text

No integer that a text gives to one of its keys is out of the range of 64 bits:
the readers of numbers refuse what does not fit, and putting tables together
moves values without changing them.
-/
namespace MixerRouting

/-- An integer is in the range of 64 bits; other values are in any case. -/
def TomlValue.InRange (v : TomlValue) : Prop :=
  ∀ i, v = .integer i → Toml.minInteger ≤ i ∧ i ≤ Toml.maxInteger

namespace Toml

/-! ### Numbers -/

/-- A reader's answer is a value in range, if there is an answer. -/
def Yields (found : Option (TomlValue × List Char)) : Prop :=
  ∀ v rest, found = some (v, rest) → v.InRange

theorem Yields.bind {α : Type} {found : Option α} {f : α → Option (TomlValue × List Char)}
    (h : ∀ a, Yields (f a)) : Yields (found.bind f) := by
  intro v rest hv
  obtain ⟨a, -, ha⟩ := Option.bind_eq_some_iff.mp hv
  exact h a v rest ha

theorem yields_none : Yields none := fun _ _ h => by cases h

theorem yields_some {v : TomlValue} (h : v.InRange) (rest : List Char) :
    Yields (some (v, rest)) := by
  rintro _ _ ⟨⟩
  exact h

theorem Yields.map {α : Type} {found : Option α} {f : α → TomlValue × List Char}
    (h : ∀ a, (f a).1.InRange) : Yields (found.map f) := by
  intro v rest hv
  obtain ⟨a, -, ha⟩ := Option.map_eq_some_iff.mp hv
  have hfst : (f a).1 = v := congrArg Prod.fst ha
  exact hfst ▸ h a

theorem inRange_of_ne {v : TomlValue} (h : ∀ i, v ≠ .integer i) : v.InRange :=
  fun i hi => absurd hi (h i)

theorem yields_integer? (i : Int) (rest : List Char) :
    Yields ((integer? i).bind fun v => some (v, rest)) := by
  unfold integer?
  split
  next hrange =>
    refine yields_some (fun j hj => ?_) rest
    cases hj
    exact hrange
  next => exact yields_none

theorem yields_float? (n : Numeral) (rest : List Char) :
    Yields ((float? n).bind fun v => some (v, rest)) := by
  unfold float?
  split
  · exact yields_none
  · exact yields_some (inRange_of_ne fun _ => TomlValue.noConfusion) rest

theorem yields_readBased (base : Nat) (s : List Char) : Yields (readBased base s) :=
  .bind fun _ => yields_integer? _ _

theorem yields_readPlain (s : List Char) : Yields (readPlain s) := by
  -- Whatever stands behind the whole part, the number ends as an integer or as a float.
  have hends : ∀ (negative : Bool) (whole : Nat) (fraction : Option (List Digit))
      (exponent : Option Int) (rest : List Char),
      Yields (if fraction.isNone ∧ exponent.isNone then
          (integer? (if negative then -whole else whole)).bind fun v => some (v, rest)
        else (float? ⟨negative, whole, fraction.getD [], exponent⟩).bind fun v =>
          some (v, rest)) := by
    intro negative whole fraction exponent rest
    split
    · exact yields_integer? _ rest
    · exact yields_float? _ rest
  simp only [readPlain, bind, pure]
  refine .bind fun _ => ?_
  split
  · refine .bind fun _ => ?_
    split <;> exact .bind fun _ => hends _ _ _ _ _
  · refine .bind fun _ => ?_
    split <;> exact .bind fun _ => hends _ _ _ _ _

theorem yields_readNumber (s : List Char) : Yields (readNumber s) := by
  unfold readNumber
  split
  · exact yields_readBased 16 _
  · exact yields_readBased 8 _
  · exact yields_readBased 2 _
  split
  · exact yields_some (inRange_of_ne fun _ => TomlValue.noConfusion) _
  · exact yields_some (inRange_of_ne fun _ => TomlValue.noConfusion) _
  · exact yields_readPlain s

/-! ### Tables under construction -/

/-- All values of a table under construction are in range. -/
inductive Node.InRange : Node → Prop where
  | value {v : TomlValue} (h : v.InRange) : InRange (.value v)
  | table {origin : Origin} {fields : List (String × Node)}
      (h : ∀ field ∈ fields, InRange field.2) : InRange (.table origin fields)
  | tables {earlier : List Node} {last : Node} (h : ∀ n ∈ earlier, InRange n)
      (hlast : InRange last) : InRange (.tables earlier last)

namespace Node

variable {n n' child : Node} {path : List String} {v : TomlValue}

theorem inRange_empty (origin : Origin) : (Node.table origin []).InRange :=
  .table (List.forall_mem_nil _)

theorem InRange.fields (h : n.InRange) : ∀ field ∈ n.fields, field.2.InRange := by
  cases h with
  | value h => exact List.forall_mem_nil _
  | table h => exact h
  | tables h hlast => exact List.forall_mem_nil _

theorem InRange.find? (h : n.InRange) {key : String} (hfind : n.find? key = some child) :
    child.InRange := by
  obtain ⟨front, back, hfields, -⟩ := List.lookup_eq_some_iff.mp hfind
  exact h.fields (key, child) (by simp [hfields])

theorem InRange.put (h : n.InRange) (key : String) (hchild : child.InRange) :
    (n.put key child).InRange := by
  cases h with
  | value h => exact .value h
  | tables h hlast => exact .tables h hlast
  | table h =>
    unfold Node.put
    dsimp only
    split
    · refine .table fun field hfield => ?_
      obtain ⟨original, horiginal, rfl⟩ := List.mem_map.mp hfield
      split
      · exact hchild
      · exact h original horiginal
    · refine .table fun field hfield => ?_
      rcases List.mem_append.mp hfield with hold | hnew
      · exact h field hold
      · rw [List.mem_singleton.mp hnew]
        exact hchild

/-- What is done at the end of a path keeps all values in range, if it does so by itself. -/
theorem InRange.within {origin : Origin} {f : Node → Option Node}
    (hf : ∀ t t', t.InRange → f t = some t' → t'.InRange) (h : n.InRange)
    (hn : n.within origin f path = some n') : n'.InRange := by
  induction path generalizing n n' with
  | nil => exact hf n n' h hn
  | cons key path ih =>
    unfold Node.within at hn
    split at hn
    · obtain ⟨child, hchild, rfl⟩ := Option.map_eq_some_iff.mp hn
      exact h.put key (ih (inRange_empty origin) hchild)
    · cases hn
    next earlier last hfind =>
      obtain ⟨child, hchild, rfl⟩ := Option.map_eq_some_iff.mp hn
      cases h.find? hfind with
      | tables hearlier hlast => exact h.put key (.tables hearlier (ih hlast hchild))
    next inner hfind =>
      split at hn
      · cases hn
      · obtain ⟨child, hchild, rfl⟩ := Option.map_eq_some_iff.mp hn
        exact h.put key (ih (h.find? hfind) hchild)

theorem InRange.enter (h : n.InRange) (hv : v.InRange) (hn : n.enter path v = some n') :
    n'.InRange := by
  simp only [Node.enter, bind, Option.bind_eq_some_iff] at hn
  obtain ⟨key, -, hn⟩ := hn
  refine h.within (fun t t' ht hentered => ?_) hn
  split at hentered
  · cases hentered
  split at hentered
  · cases hentered
  · cases hentered
    exact ht.put key (.value hv)

/-- The values of pairs of a key and a value are in range. -/
def PairsInRange (pairs : List (List String × TomlValue)) : Prop := ∀ pair ∈ pairs, pair.2.InRange

theorem InRange.enterAll {pairs : List (List String × TomlValue)} (h : n.InRange)
    (hpairs : PairsInRange pairs) (hn : n.enterAll pairs = some n') : n'.InRange := by
  induction pairs generalizing n with
  | nil =>
    cases hn
    exact h
  | cons pair pairs ih =>
    obtain ⟨hpair, hrest⟩ := List.forall_mem_cons.mp hpairs
    simp only [Node.enterAll, List.foldlM_cons, bind, Option.bind_eq_some_iff] at hn
    obtain ⟨next, hnext, hn⟩ := hn
    exact ih (h.enter hpair hnext) hrest hn

theorem InRange.enterTable {pairs : List (List String × TomlValue)} (h : n.InRange)
    (hpairs : PairsInRange pairs) (hn : n.enterTable path pairs = some n') : n'.InRange := by
  simp only [Node.enterTable, bind, Option.bind_eq_some_iff] at hn
  obtain ⟨key, -, hn⟩ := hn
  refine h.within (fun t t' ht hentered => ?_) hn
  have hfill : ∀ fields : List (String × Node), (∀ field ∈ fields, field.2.InRange) →
      (((Node.table .header fields).enterAll pairs).bind fun table => some (t.put key table)) =
        some t' → t'.InRange := by
    intro fields hfields hfilled
    obtain ⟨table, htable, hput⟩ := Option.bind_eq_some_iff.mp hfilled
    cases hput
    exact ht.put key ((InRange.table hfields).enterAll hpairs htable)
  split at hentered
  · exact hfill [] (List.forall_mem_nil _) hentered
  next fields hfind =>
    cases ht.find? hfind with
    | table hfields => exact hfill fields hfields hentered
  · cases hentered

theorem InRange.enterRow {pairs : List (List String × TomlValue)} (h : n.InRange)
    (hpairs : PairsInRange pairs) (hn : n.enterRow path pairs = some n') : n'.InRange := by
  simp only [Node.enterRow, bind, Option.bind_eq_some_iff] at hn
  obtain ⟨key, -, hn⟩ := hn
  refine h.within (fun t t' ht hentered => ?_) hn
  obtain ⟨table, htable, hentered⟩ := Option.bind_eq_some_iff.mp hentered
  have hrow := (inRange_empty .header).enterAll hpairs htable
  split at hentered
  · cases hentered
    exact ht.put key (.tables (List.forall_mem_nil _) hrow)
  next earlier last hfind =>
    cases hentered
    cases ht.find? hfind with
    | tables hearlier hlast =>
      refine ht.put key (.tables (fun n hn => ?_) hrow)
      rcases List.mem_append.mp hn with hold | hnew
      · exact hearlier n hold
      · rw [List.mem_singleton.mp hnew]
        exact hlast
  · cases hentered

theorem InRange.enterSection {part : Section} (h : n.InRange) (hpairs : PairsInRange part.pairs)
    (hn : n.enterSection part = some n') : n'.InRange := by
  unfold Node.enterSection at hn
  split at hn
  · exact h.enterTable hpairs hn
  · exact h.enterRow hpairs hn
  · exact h.enterAll hpairs hn

theorem InRange.toValue (h : n.InRange) : n.toValue.InRange := by
  cases h with
  | value h => rwa [Node.toValue]
  | table h =>
    rw [Node.toValue]
    exact inRange_of_ne fun _ => TomlValue.noConfusion
  | tables h hlast =>
    rw [Node.toValue]
    exact inRange_of_ne fun _ => TomlValue.noConfusion

theorem mem_toFields {fields : List (String × Node)} {field : String × TomlValue}
    (h : field ∈ toFields fields) : ∃ original ∈ fields, field.2 = original.2.toValue := by
  induction fields with
  | nil => cases h
  | cons original fields ih =>
    rw [toFields] at h
    rcases List.mem_cons.mp h with rfl | h
    · exact ⟨original, List.mem_cons_self, rfl⟩
    · obtain ⟨later, hlater, hvalue⟩ := ih h
      exact ⟨later, List.mem_cons_of_mem _ hlater, hvalue⟩

end Node

open Node (PairsInRange)

theorem inRange_of_inlineTable? {pairs : List (List String × TomlValue)}
    (hpairs : PairsInRange pairs) {v : TomlValue} (h : inlineTable? pairs = some v) :
    v.InRange := by
  obtain ⟨n, hn, rfl⟩ := Option.map_eq_some_iff.mp h
  exact ((Node.inRange_empty .header).enterAll hpairs hn).toValue

/-! ### Values and lines -/

-- The induction is on the fuel: a table in braces is as good as the pairs in it, and these are read
-- with less of it.
theorem yields_readValue (fuel : Nat) :
    (∀ depth s, Yields (readValue fuel depth s)) ∧
      ∀ depth s pairs rest, readPairs fuel depth s = some (pairs, rest) → PairsInRange pairs := by
  induction fuel with
  | zero => exact ⟨fun _ _ => yields_none, fun _ _ _ _ h => by cases h⟩
  | succ fuel ih =>
    obtain ⟨ihValue, ihPairs⟩ := ih
    constructor
    · intro depth s
      simp only [readValue, bind, pure]
      split
      · exact .map fun _ => inRange_of_ne fun _ => TomlValue.noConfusion
      · exact .map fun _ => inRange_of_ne fun _ => TomlValue.noConfusion
      · split
        · exact yields_none
        · exact yields_some (inRange_of_ne fun _ => TomlValue.noConfusion) _
        · exact .map fun _ => inRange_of_ne fun _ => TomlValue.noConfusion
      · split
        · exact yields_none
        · exact yields_some (inRange_of_ne fun _ => TomlValue.noConfusion) _
        · intro v rest h
          simp only [Option.bind_eq_some_iff, Option.some.injEq, Prod.mk.injEq] at h
          obtain ⟨_, hpairs, _, htable, rfl, -⟩ := h
          exact inRange_of_inlineTable? (ihPairs _ _ _ _ hpairs) htable
      · exact yields_some (inRange_of_ne fun _ => TomlValue.noConfusion) _
      · exact yields_some (inRange_of_ne fun _ => TomlValue.noConfusion) _
      · split
        · exact .bind fun _ => yields_some (inRange_of_ne fun _ => TomlValue.noConfusion) _
        · exact yields_readNumber s
    · intro depth s pairs rest h
      unfold readPairs at h
      split at h
      · cases h
      split at h
      next after _ =>
        split at h
        · cases h
        next v after' hvalue =>
          have hv := ihValue _ _ _ _ hvalue
          split at h
          · cases h
            exact List.forall_mem_singleton.mpr hv
          · obtain ⟨found, hfound, heq⟩ := Option.map_eq_some_iff.mp h
            cases heq
            exact List.forall_mem_cons.mpr ⟨hv, ihPairs _ _ _ _ hfound⟩
          · cases h
      · cases h

/-- A line that gives a value to a key gives it one in range. -/
theorem inRange_of_readLine {s rest : List Char} {path : List String} {v : TomlValue}
    (h : readLine s = some (.pair path v, rest)) : v.InRange := by
  simp only [readLine, bind, pure] at h
  split at h
  · cases h
  · obtain ⟨_, -, h⟩ := Option.bind_eq_some_iff.mp h
    cases h
  · cases h
  · obtain ⟨_, -, h⟩ := Option.bind_eq_some_iff.mp h
    cases h
  · obtain ⟨_, -, h⟩ := Option.bind_eq_some_iff.mp h
    split at h
    · obtain ⟨_, -, h⟩ := Option.bind_eq_some_iff.mp h
      cases h
    · cases h
  · obtain ⟨_, -, h⟩ := Option.bind_eq_some_iff.mp h
    split at h
    · obtain ⟨_, -, h⟩ := Option.bind_eq_some_iff.mp h
      cases h
    · cases h
  · obtain ⟨_, -, h⟩ := Option.bind_eq_some_iff.mp h
    split at h
    next after _ =>
      obtain ⟨⟨value, tail⟩, hvalue, h⟩ := Option.bind_eq_some_iff.mp h
      obtain ⟨_, -, h⟩ := Option.bind_eq_some_iff.mp h
      cases h
      exact (yields_readValue _).1 _ _ _ _ hvalue
    · cases h

/-- The values that some lines give to keys are in range. -/
def LinesInRange (lines : List Line) : Prop := ∀ path v, Line.pair path v ∈ lines → v.InRange

theorem linesInRange_of_readLines {fuel : Nat} {s : List Char} {lines : List Line}
    (h : readLines fuel s = some lines) : LinesInRange lines := by
  induction fuel generalizing s lines with
  | zero =>
    cases s with
    | nil =>
      cases h
      exact fun _ _ hnone => absurd hnone List.not_mem_nil
    | cons c s => cases h
  | succ fuel ih =>
    cases s with
    | nil =>
      cases h
      exact fun _ _ hnone => absurd hnone List.not_mem_nil
    | cons c s =>
      simp only [readLines, bind, pure] at h
      obtain ⟨⟨line, rest⟩, hline, h⟩ := Option.bind_eq_some_iff.mp h
      obtain ⟨more, hmore, h⟩ := Option.bind_eq_some_iff.mp h
      cases h
      intro path v hmem
      rcases List.mem_cons.mp hmem with rfl | hlater
      · exact inRange_of_readLine hline
      · exact ih hmore path v hlater

theorem pairsInRange_sections {lines : List Line} (h : LinesInRange lines) :
    PairsInRange (sections lines).1 ∧ ∀ part ∈ (sections lines).2, PairsInRange part.pairs := by
  induction lines with
  | nil =>
    exact ⟨List.forall_mem_nil _, List.forall_mem_nil _⟩
  | cons line lines ih =>
    obtain ⟨hfirst, hlater⟩ := ih fun path v hmem => h path v (List.mem_cons_of_mem _ hmem)
    have hheader : PairsInRange [] ∧
        ∀ part ∈ Section.mk line (sections lines).1 :: (sections lines).2,
          PairsInRange part.pairs :=
      ⟨List.forall_mem_nil _, List.forall_mem_cons.mpr ⟨hfirst, hlater⟩⟩
    cases line with
    | blank => exact ⟨hfirst, hlater⟩
    | pair path v =>
      exact ⟨List.forall_mem_cons.mpr ⟨h path v List.mem_cons_self, hfirst⟩, hlater⟩
    | table path => exact hheader
    | row path => exact hheader

/-- Entering one section after another keeps all values in range. -/
theorem Node.InRange.enterSections {n n' : Node} {parts : List Section} (h : n.InRange)
    (hparts : ∀ part ∈ parts, PairsInRange part.pairs)
    (hn : parts.foldlM Node.enterSection n = some n') : n'.InRange := by
  induction parts generalizing n with
  | nil =>
    cases hn
    exact h
  | cons part parts ih =>
    obtain ⟨hpart, hrest⟩ := List.forall_mem_cons.mp hparts
    rw [List.foldlM_cons] at hn
    obtain ⟨next, hnext, hn⟩ := Option.bind_eq_some_iff.mp hn
    exact ih (h.enterSection hpart hnext) hrest hn

/-- No integer that a text gives to one of its keys is out of range. -/
theorem inRange_of_parse? {text : String} {fields : List (String × TomlValue)}
    (h : parse? text = some fields) : ∀ field ∈ fields, field.2.InRange := by
  simp only [parse?, bind, pure] at h
  obtain ⟨lines, hlines, h⟩ := Option.bind_eq_some_iff.mp h
  obtain ⟨first, hfirst, h⟩ := Option.bind_eq_some_iff.mp h
  obtain ⟨top, htop, h⟩ := Option.bind_eq_some_iff.mp h
  cases h
  obtain ⟨hpairs, hparts⟩ := pairsInRange_sections (linesInRange_of_readLines hlines)
  have hfilled := (Node.inRange_empty .header).enterAll hpairs hfirst
  have hall := (hfilled.enterSections hparts htop).fields
  intro field hfield
  obtain ⟨original, horiginal, hvalue⟩ := Node.mem_toFields hfield
  rw [hvalue]
  exact (hall original horiginal).toValue

end Toml

end MixerRouting
