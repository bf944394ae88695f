import Mathlib.Data.List.DropRight
import Mathlib.Data.List.Infix
import MixerRouting.Routing.RenderMark

/-!
# What the mark says about open scopes

The mark is meant to say whether a scope is open. Each scope puts back what it
found, so the order in which scopes are closed matters. A scope that is opened
when no other is open finds the thread unmarked. When it is closed before the
others, the thread is unmarked while they are still open, and the last of them
to close marks it again for good. In all other orders, nested or not, the mark
is right.

Nothing is said of several threads. Each has a mark of its own.
-/
namespace MixerRouting.RenderMark

/-! ### Runs -/

/-- What is done to the scopes of one thread. A scope is closed by its number. -/
inductive Step where
  | enter
  | leave (number : Nat)
  deriving DecidableEq

def step (m : RenderMark) : Step → RenderMark
  | .enter => m.enter
  | .leave number => m.leave number

def run (m : RenderMark) (steps : List Step) : RenderMark := steps.foldl step m

/-- A thread without scopes. -/
def start (initial : Bool) : RenderMark := { rendering := initial }

def IsOpen (m : RenderMark) (number : Nat) : Prop := ∃ found, m.scopes[number]? = some (some found)

/-- While a scope is open the thread is marked; when none is, it is as it was in the beginning. -/
structure Tracks (m : RenderMark) (initial : Bool) : Prop where
  marked : ∀ n, m.IsOpen n → m.rendering = true
  restored : (∀ n, ¬m.IsOpen n) → m.rendering = initial

/-- Scope 0 was opened when no other scope was open. The step does not close it before others. -/
def Safe (m : RenderMark) (s : Step) : Prop :=
  s = .leave 0 → m.IsOpen 0 → ∀ n, m.IsOpen n → n = 0

/-- No step closes the first of the scopes that are open before the others. -/
def FirstClosesLast (m : RenderMark) (steps : List Step) : Prop :=
  ∀ before s, before ++ [s] <+: steps → (m.run before).Safe s

theorem firstClosesLast_cons_iff {m : RenderMark} {s : Step} {steps : List Step} :
    m.FirstClosesLast (s :: steps) ↔ m.Safe s ∧ (m.step s).FirstClosesLast steps := by
  constructor
  · intro h
    refine ⟨h [] s (List.prefix_append [s] steps), ?_⟩
    intro before t hprefix
    exact h (s :: before) t (List.prefix_cons_inj s |>.mpr hprefix)
  · rintro ⟨hsafe, hrest⟩ before t hprefix
    cases before with
    | nil =>
      obtain rfl : t = s := (List.cons_prefix_cons.mp hprefix).1
      exact hsafe
    | cons u before =>
      obtain ⟨rfl, hlater⟩ := List.cons_prefix_cons.mp hprefix
      exact hrest before t hlater

/-! ### Forgetting closed scopes -/

theorem trim_eq (scopes : List (Option Bool)) : trim scopes = scopes.rdropWhile Option.isNone := rfl

theorem mem_of_mem_trim {scopes : List (Option Bool)} {s : Option Bool} (h : s ∈ trim scopes) :
    s ∈ scopes :=
  (List.rdropWhile_prefix Option.isNone scopes).subset h

/-- Forgetting closed scopes forgets no open one and moves none. -/
theorem getElem?_trim_eq_some_iff {scopes : List (Option Bool)} {n : Nat} {found : Bool} :
    (trim scopes)[n]? = some (some found) ↔ scopes[n]? = some (some found) := by
  have hsplit : trim scopes ++ scopes.rtakeWhile Option.isNone = scopes :=
    List.rdropWhile_append_rtakeWhile
  constructor
  · intro h
    rw [← hsplit, List.getElem?_append_left (List.getElem?_eq_some_iff.mp h).1]
    exact h
  · intro h
    by_cases hn : n < (trim scopes).length
    · rwa [← hsplit, List.getElem?_append_left hn] at h
    · rw [← hsplit, List.getElem?_append_right (Nat.le_of_not_lt hn)] at h
      have hclosed := List.mem_rtakeWhile_imp (List.mem_of_getElem? h)
      cases hclosed

theorem trim_some_cons (found : Bool) (scopes : List (Option Bool)) :
    trim (some found :: scopes) = some found :: trim scopes := by
  induction scopes using List.reverseRecOn with
  | nil => rfl
  | append_singleton scopes s ih =>
    rw [← List.cons_append, trim_eq, trim_eq, List.rdropWhile_concat, List.rdropWhile_concat]
    split
    · exact ih
    · rfl

/-! ### A first scope that found the thread unmarked -/

/-- The scopes of an unmarked thread, one of which is the first: no other found it unmarked. -/
inductive Sheltered : RenderMark → Prop
  | idle : Sheltered (start false)
  | under {rest : List (Option Bool)} : some false ∉ rest → Sheltered ⟨true, some false :: rest⟩

theorem Sheltered.tracks {m : RenderMark} (h : m.Sheltered) : m.Tracks false := by
  cases h with
  | idle => exact ⟨fun n ⟨found, hn⟩ => absurd hn nofun, fun _ => rfl⟩
  | under hrest => exact ⟨fun _ _ => rfl, fun hnone => absurd ⟨false, rfl⟩ (hnone 0)⟩

theorem Sheltered.step {m : RenderMark} (h : m.Sheltered) {s : Step} (hs : m.Safe s) :
    (m.step s).Sheltered := by
  cases h with
  | idle =>
    cases s with
    | enter => exact .under List.not_mem_nil
    | leave number => exact .idle
  | @under rest hrest =>
    cases s with
    | enter =>
      refine @Sheltered.under (rest ++ [some true]) ?_
      rw [List.mem_append, List.mem_singleton]
      exact fun h => h.elim hrest nofun
    | leave number =>
      cases number with
      | zero =>
        have hclosed : ∀ s ∈ rest, s = none := by
          intro s hs'
          obtain ⟨n, hn⟩ := List.mem_iff_getElem?.mp hs'
          cases s with
          | none => rfl
          | some found => exact absurd (hs rfl ⟨false, rfl⟩ (n + 1) ⟨found, hn⟩) nofun
        have hnone : trim (none :: rest) = [] := by
          rw [trim_eq, List.rdropWhile_eq_nil_iff]
          intro s hs'
          rcases List.mem_cons.mp hs' with rfl | hs'
          · rfl
          · rw [hclosed s hs']
            rfl
        show Sheltered ⟨false, trim (none :: rest)⟩
        rw [hnone]
        exact .idle
      | succ n =>
        simp only [RenderMark.step, leave, List.getElem?_cons_succ, List.set_cons_succ]
        split
        · next found hn =>
          -- An open scope behind the first one found the thread marked.
          have hfound : found = true := by
            cases found with
            | true => rfl
            | false => exact absurd (List.mem_of_getElem? hn) hrest
          rw [hfound, trim_some_cons]
          apply Sheltered.under
          intro hmem
          rcases List.mem_or_eq_of_mem_set (mem_of_mem_trim hmem) with hold | hnew
          · exact hrest hold
          · cases hnew
        · exact .under hrest

/-- Closing the first scope before another one takes the mark away from that one. -/
theorem Sheltered.not_tracks {m : RenderMark} (h : m.Sheltered) {s : Step} (hs : ¬m.Safe s) :
    ¬(m.step s).Tracks false := by
  simp only [Safe, not_forall] at hs
  obtain ⟨rfl, hfirst, n, hopen, hn⟩ := hs
  cases h with
  | idle =>
    obtain ⟨found, hfound⟩ := hfirst
    cases hfound
  | @under rest hrest =>
    obtain ⟨k, rfl⟩ := Nat.exists_eq_succ_of_ne_zero hn
    obtain ⟨found, hfound⟩ := hopen
    have hstill : (RenderMark.step ⟨true, some false :: rest⟩ (.leave 0)).IsOpen (k + 1) :=
      ⟨found, getElem?_trim_eq_some_iff.mpr hfound⟩
    intro htracks
    exact Bool.false_ne_true (htracks.marked _ hstill)

theorem Sheltered.always_tracks_iff {m : RenderMark} (h : m.Sheltered) (steps : List Step) :
    (∀ before, before <+: steps → (m.run before).Tracks false) ↔ m.FirstClosesLast steps := by
  induction steps generalizing m with
  | nil =>
    constructor
    · intro _ before s hprefix
      exact absurd (List.prefix_nil.mp hprefix) (List.append_ne_nil_of_right_ne_nil _ nofun)
    · intro _ before hprefix
      rw [List.prefix_nil.mp hprefix]
      exact h.tracks
  | cons s rest ih =>
    rw [firstClosesLast_cons_iff]
    constructor
    · intro htracks
      have hsafe : m.Safe s := by
        by_contra hunsafe
        exact h.not_tracks hunsafe (htracks [s] (List.prefix_append [s] rest))
      refine ⟨hsafe, (ih (h.step hsafe)).mp ?_⟩
      intro before hprefix
      exact htracks (s :: before) (List.cons_prefix_cons.mpr ⟨rfl, hprefix⟩)
    · rintro ⟨hsafe, hrest⟩ before hprefix
      rcases List.prefix_cons_iff.mp hprefix with rfl | ⟨later, rfl, hlater⟩
      · exact h.tracks
      · exact (ih (h.step hsafe)).mpr hrest later hlater

/-! ### A thread that is marked anyway -/

/-- The thread is marked and every scope found it so. -/
def AlwaysMarked (m : RenderMark) : Prop := m.rendering = true ∧ some false ∉ m.scopes

theorem AlwaysMarked.step {m : RenderMark} (h : m.AlwaysMarked) (s : Step) :
    (m.step s).AlwaysMarked := by
  obtain ⟨hmarked, hfound⟩ := h
  cases s with
  | enter =>
    refine ⟨rfl, ?_⟩
    show some false ∉ m.scopes ++ [some m.rendering]
    rw [hmarked, List.mem_append, List.mem_singleton]
    exact fun h => h.elim hfound nofun
  | leave number =>
    simp only [RenderMark.step, leave]
    split
    · next found hn =>
      constructor
      · cases found with
        | true => rfl
        | false => exact absurd (List.mem_of_getElem? hn) hfound
      · intro hmem
        rcases List.mem_or_eq_of_mem_set (mem_of_mem_trim hmem) with hold | hnew
        · exact hfound hold
        · cases hnew
    · exact ⟨hmarked, hfound⟩

theorem AlwaysMarked.run {m : RenderMark} (h : m.AlwaysMarked) (steps : List Step) :
    (m.run steps).AlwaysMarked := by
  induction steps generalizing m with
  | nil => exact h
  | cons s rest ih => exact ih (h.step s)

theorem tracks_start_true (steps : List Step) : ((start true).run steps).Tracks true := by
  have hmarked : ((start true).run steps).AlwaysMarked :=
    AlwaysMarked.run ⟨rfl, List.not_mem_nil⟩ steps
  exact ⟨fun _ _ => hmarked.1, fun _ => hmarked.1⟩

/-! ### All threads -/

/-- Whatever order scopes are closed in, the mark is right all along exactly if the thread was
marked before the first of them, or no scope that was opened while no other was open is closed while
another one is open. -/
theorem tracks_iff (initial : Bool) (steps : List Step) :
    (∀ before, before <+: steps → ((start initial).run before).Tracks initial) ↔
      initial = true ∨ (start initial).FirstClosesLast steps := by
  cases initial with
  | true => exact iff_of_true (fun before _ => tracks_start_true before) (.inl rfl)
  | false => rw [Sheltered.idle.always_tracks_iff, or_iff_right Bool.false_ne_true]

/-- Two scopes that overlap. Closing the first one unmarks the thread under the second, and closing
the second one marks it when none is open. -/
theorem not_tracks_of_overlap :
    (¬∀ initial steps n, ((start initial).run steps).IsOpen n →
        ((start initial).run steps).rendering = true) ∧
      ¬∀ initial steps, (∀ n, ¬((start initial).run steps).IsOpen n) →
        ((start initial).run steps).rendering = initial := by
  constructor
  · intro h
    exact Bool.false_ne_true (h false [.enter, .enter, .leave 0] 1 ⟨true, rfl⟩)
  · intro h
    refine Bool.false_ne_true (h false [.enter, .enter, .leave 0, .leave 1] ?_).symm
    rintro n ⟨found, hn⟩
    cases hn

/-- The mark is right as long as every scope is the last one that is open when it is closed. -/
theorem tracks_of_nested (initial : Bool) {steps : List Step}
    (h : ∀ before n, before ++ [.leave n] <+: steps →
      n + 1 = ((start initial).run before).scopes.length)
    {before : List Step} (hb : before <+: steps) :
    ((start initial).run before).Tracks initial := by
  cases initial with
  | true => exact tracks_start_true before
  | false =>
    refine (Sheltered.idle.always_tracks_iff steps).mpr ?_ before hb
    rintro before s hprefix rfl - n ⟨found, hn⟩
    have hone := h before 0 hprefix
    have hlt := (List.getElem?_eq_some_iff.mp hn).1
    omega

end MixerRouting.RenderMark
