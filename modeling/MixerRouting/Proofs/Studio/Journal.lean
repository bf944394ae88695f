import MixerRouting.Proofs.Studio.Operation

/-!
# Routes follow publications

A journal of a run keeps every publication with the wires and the registry of
its time. At any moment of any run, whatever is done, a snapshot is the one of
the latest publication at which its slot was registered, for the identity under
which it was registered then. Nothing that happened to wires or registrations
since then shows. What does show is whether a plugin behind a route failed: the
route keeps the handle of its time, and through it the plugin of its time, even
if the plugin's number was taken away or given to another one.
-/
namespace MixerRouting

/-- The wires that were published, and the registry at that time. -/
structure Publication where
  wires : List Wire
  registry : Registry

/-- The latest publication at which a slot was registered, with the identity that it had. The
journal has the latest publication first. -/
def Publication.latest? (journal : List Publication) (slot : RouteSlot) :
    Option (Publication × PortId) :=
  journal.findSome? fun pub => (pub.registry.holder? slot).map fun p => (pub, p)

theorem Publication.latest?_cons (pub : Publication) (journal : List Publication)
    (slot : RouteSlot) :
    latest? (pub :: journal) slot = match pub.registry.holder? slot with
      | some p => some (pub, p)
      | none => latest? journal slot := by
  unfold latest?
  rw [List.findSome?_cons]
  cases pub.registry.holder? slot <;> rfl

theorem Publication.mem_of_latest? {journal : List Publication} {slot : RouteSlot}
    {pub : Publication} {p : PortId} (h : latest? journal slot = some (pub, p)) :
    pub ∈ journal := by
  obtain ⟨pub', hm, hp⟩ := List.exists_of_findSome?_eq_some h
  obtain ⟨q, -, he⟩ := Option.map_eq_some_iff.mp hp
  cases he
  exact hm

/-- A route that was made with the handles of one registry, seen with a later one. -/
theorem Registry.Continues.usable {r r' : Registry} (h : r.Continues r') (hgiven : r.HandlesGiven)
    {route : Route} (hplugin : route.plugin = r.hostOf route.peer) :
    match r.hostOf route.peer with
    | none => r'.usable route = true
    | some handle => ∃ old now, r.descriptor? handle = some old ∧
      r'.descriptor? handle = some now ∧ now.name = old.name ∧ now.track = old.track ∧
      r'.usable route = !now.failed := by
  rw [Registry.usable, hplugin]
  cases hhost : r.hostOf route.peer with
  | none => rfl
  | some handle =>
    have hlt : handle.index < r.descriptors.length := by
      obtain ⟨id, -, hid⟩ := Option.bind_eq_some_iff.mp hhost
      exact hgiven id handle hid
    have hold : r.descriptor? handle = some r.descriptors[handle.index] :=
      List.getElem?_eq_getElem hlt
    obtain ⟨now, hnow, hname, htrack⟩ := h handle _ hold
    refine ⟨_, now, hold, hnow, hname, htrack, ?_⟩
    rw [Option.bind_some, hnow]

/-- Whether an operation asks for a publication, by itself or in the end. -/
def Operation.asks : Operation → Bool
  | .work _ op => op.asks
  | _ => false

namespace Studio

/-- What an operation publishes, by its answer: one that comes to a publication and succeeds
publishes the wires as it leaves them. -/
def publication? (st : Studio) : Operation → Option Publication
  | .work m op =>
    let (done, st') := st.work m op
    if st.publishes m op && done then some ⟨(st'.wiring m).wires, st'.registry⟩ else none
  | _ => none

/-- Runs from a studio with nothing but empty wirings, with their journals. At no time is a slot
registered under two identities. -/
inductive Led (wirings : Nat) : Studio → List Publication → Prop
  | start : Led wirings (.empty wirings) []
  | step {st : Studio} {journal : List Publication} (op : Operation) :
    Led wirings st journal → op.applies st → (st.perform op).2.registry.SlotsApart →
    Led wirings (st.perform op).2 ((st.publication? op).toList ++ journal)

/-- Operations that apply one after the other, with no slot under two identities in between. -/
def feasible (st : Studio) : List Operation → Bool
  | [] => true
  | op :: rest => op.applies st && decide (st.perform op).2.registry.SlotsApart &&
    (st.perform op).2.feasible rest

/-- A run so far with its journal, and one operation more. -/
def record (run : Studio × List Publication) (op : Operation) : Studio × List Publication :=
  ((run.1.perform op).2, (run.1.publication? op).toList ++ run.2)

theorem Led.foldl_record {wirings : Nat} {st : Studio} {journal : List Publication}
    (h : Led wirings st journal) {ops : List Operation} (hops : st.feasible ops) :
    Led wirings (ops.foldl record (st, journal)).1 (ops.foldl record (st, journal)).2 := by
  induction ops generalizing st journal with
  | nil => exact h
  | cons op rest ih =>
    rw [feasible, Bool.and_eq_true, Bool.and_eq_true] at hops
    obtain ⟨⟨happ, hapart⟩, hrest⟩ := hops
    exact ih (h.step op happ (of_decide_eq_true hapart)) hrest

/-! ### One operation -/

section
variable {st : Studio} (h : st.Sound) {op : Operation} (happ : op.applies st)
include h happ

/-- An operation publishes nothing and changes no snapshot, or it publishes what the journal says.
The second happens only if that was asked for and the operation succeeds. -/
theorem publication_cases :
    (st.publication? op = none ∧
      ∀ slot, (st.perform op).2.board.read slot = st.board.read slot) ∨
    op.asks = true ∧ (st.perform op).1 = true ∧ ∃ g : Wiring, g.Reachable ∧
      st.publication? op = some ⟨g.wires, st.registry⟩ ∧
      (st.perform op).2.registry = st.registry ∧
      (st.perform op).2.board = g.published st.registry st.board := by
  by_cases hop : ∀ m w, op ≠ .work m w
  · left
    refine ⟨?_, (aside_perform happ hop).grown.read⟩
    cases op with
    | work m w => exact absurd rfl (hop m w)
    | _ => rfl
  · push Not at hop
    obtain ⟨m, w, rfl⟩ := hop
    have ho := outcome_work h.wiring m w
    simp only [publication?, perform, Operation.asks]
    generalize st.work m w = outcome at ho ⊢
    cases ho with
    | edited hw hedits hfailed =>
      obtain ⟨g, -, rfl⟩ := hedits
      left
      refine ⟨if_neg ?_, fun slot => congrArg (Board.read · slot) hw.board⟩
      rw [Bool.and_eq_true]
      rintro ⟨hdue, hdone⟩
      exact Bool.false_ne_true ((hfailed hdue).symm.trans hdone)
    | published hw hpublishes hdue =>
      obtain ⟨g, recalcs, hg, rfl⟩ := hpublishes
      right
      have hwiring : ∀ st' : Studio, st'.wirings = st.wirings.set m g → st'.wiring m = g := by
        intro st' hs
        rw [wiring, hs, List.getElem?_set_self (of_decide_eq_true happ)]
        rfl
      refine ⟨asks_of_publishes hdue, rfl, g, hg, ?_, hw.registry, hw.board⟩
      simp only [hwiring _ hw.wirings, hw.registry, hdue, Bool.and_self, if_true]

theorem continues_registry : st.registry.Continues (st.perform op).2.registry := by
  by_cases hop : ∀ m w, op ≠ .work m w
  · exact (aside_perform happ hop).continues
  · push Not at hop
    obtain ⟨m, w, rfl⟩ := hop
    have ho := outcome_work h.wiring m w
    show st.registry.Continues (st.work m w).2.registry
    generalize st.work m w = outcome at ho ⊢
    cases ho with
    | edited hw _ _ => exact hw.registry ▸ .refl _
    | published hw _ _ => exact hw.registry ▸ .refl _

end

/-! ### Runs -/

/-- What a run preserves. -/
structure Recorded (st : Studio) (journal : List Publication) : Prop where
  sound : st.Sound
  reads : ∀ slot, st.board.read slot = match Publication.latest? journal slot with
    | some (pub, p) => pub.registry.routesAlong pub.wires p
    | none => .empty
  given : ∀ pub ∈ journal, pub.registry.HandlesGiven
  kept : ∀ pub ∈ journal, pub.registry.Continues st.registry

theorem recorded_empty (wirings : Nat) : Recorded (.empty wirings) [] where
  sound := sound_empty wirings
  reads _ := rfl
  given _ hp := absurd hp List.not_mem_nil
  kept _ hp := absurd hp List.not_mem_nil

theorem Recorded.perform {st : Studio} {journal : List Publication} (h : st.Recorded journal)
    {op : Operation} (happ : op.applies st) (hapart : (st.perform op).2.registry.SlotsApart) :
    (st.perform op).2.Recorded ((st.publication? op).toList ++ journal) := by
  have hsound := h.sound.perform happ
  have hcontinues := continues_registry h.sound happ
  have hkept : ∀ pub ∈ journal, pub.registry.Continues (st.perform op).2.registry :=
    fun pub hp => (h.kept pub hp).trans hcontinues
  rcases publication_cases h.sound happ with ⟨hnone, hread⟩ | ⟨-, -, g, hg, hsome, hreg, hboard⟩
  · rw [hnone]
    exact ⟨hsound, fun slot => (hread slot).trans (h.reads slot), h.given, hkept⟩
  · rw [hsome]
    refine ⟨hsound, ?_, ?_, ?_⟩
    · intro slot
      rw [hreg] at hapart
      show _ = match Publication.latest? (⟨g.wires, st.registry⟩ :: journal) slot with
        | some (pub, p) => pub.registry.routesAlong pub.wires p
        | none => .empty
      rw [hboard, hg.read_published h.sound.ports hapart, Publication.latest?_cons]
      cases st.registry.holder? slot with
      | some p => rfl
      | none => exact h.reads slot
    · intro pub hp
      rcases List.mem_cons.mp hp with rfl | hp
      · exact h.sound.plugins
      · exact h.given pub hp
    · intro pub hp
      rcases List.mem_cons.mp hp with rfl | hp
      · exact hcontinues
      · exact hkept pub hp

theorem Led.recorded {wirings : Nat} {st : Studio} {journal : List Publication}
    (h : Led wirings st journal) : st.Recorded journal := by
  induction h with
  | start => exact recorded_empty wirings
  | step op _ happ hapart ih => exact ih.perform happ hapart

/-- In every run, at every moment. A snapshot is empty if its slot was registered at no publication;
otherwise it has the routes along the wires of the latest one, with the registry of that time.
A route without a handle is usable. A route with one is usable as long as the plugin that the
handle was given for has not failed. What is done next changes no snapshot, unless it asks for a
publication and succeeds. -/
theorem Led.routes_follow_publication {wirings : Nat} {st : Studio} {journal : List Publication}
    (h : Led wirings st journal) :
    (∀ slot, match Publication.latest? journal slot with
      | none => st.board.read slot = .empty
      | some (pub, p) =>
        st.board.read slot = pub.registry.routesAlong pub.wires p ∧
        ∀ route ∈ (st.board.read slot).sources ++ (st.board.read slot).destinations,
          match pub.registry.hostOf route.peer with
          | none => st.registry.usable route = true
          | some handle => ∃ old now, pub.registry.descriptor? handle = some old ∧
            st.registry.descriptor? handle = some now ∧
            now.name = old.name ∧ now.track = old.track ∧
            st.registry.usable route = !now.failed) ∧
    ∀ op : Operation, op.applies st → op.asks = false ∨ (st.perform op).1 = false →
      ∀ slot, (st.perform op).2.board.read slot = st.board.read slot := by
  have hrecorded := h.recorded
  constructor
  · intro slot
    have hread := hrecorded.reads slot
    cases hlatest : Publication.latest? journal slot with
    | none =>
      rw [hlatest] at hread
      exact hread
    | some found =>
      obtain ⟨pub, p⟩ := found
      rw [hlatest] at hread
      refine ⟨hread, ?_⟩
      intro route hroute
      rw [hread] at hroute
      obtain ⟨-, -, -, hplugin⟩ := Registry.mem_routesAlong hroute
      have hpub := Publication.mem_of_latest? hlatest
      exact (hrecorded.kept pub hpub).usable (hrecorded.given pub hpub) hplugin
  · intro op happ hquiet slot
    rcases publication_cases hrecorded.sound happ with ⟨-, hread⟩ | ⟨hasked, hdone, -⟩
    · exact hread slot
    · rcases hquiet with hno | hno
      · exact absurd (hno.symm.trans hasked) Bool.false_ne_true
      · exact absurd (hno.symm.trans hdone) Bool.false_ne_true

/-- A send is connected to a plugin, the plugin's number is given to another one, and the first one
fails. Then the plugin's port is taken away, a recalculation fails and the send is switched off:
the route is as it was, to the plugin that failed. -/
theorem Led.routes_follow_publication_of_succeeded_plugin :
    let gate : PortId := ⟨.plugin 5, .event, .input, 0, .none, none⟩
    let ports := ((Send.create 1 0 .event {}).run {}).1.faces
    let ops : List Operation := [
      .addSend 1 0 .event {}, .registry (.registerPorts ports), .registerFresh gate "in",
      .registry (.registerPlugin 5 "gate" none),
      .work 0 (.act (.connect (.loose 0) (.midi gate) { recalc := true })),
      .registry (.registerPlugin 5 "delay" none), .registry (.setFailed ⟨0⟩ true),
      .registry (.unregisterPorts [⟨gate, "in", ⟨4⟩⟩]), .work 0 (.recalc true),
      .work 0 (.act (.disconnect (.loose 0) false))]
    let run := ops.foldl record (.empty 1, [])
    (run.1.wiring 0).wires = [] ∧ run.1.recalcs = ⟨1, 0⟩ ∧
      run.1.registry.plugin? 5 = some ⟨"delay", none, false⟩ ∧
      run.1.board.read ⟨3⟩ = ⟨[], [⟨gate, 1, some ⟨0⟩⟩]⟩ ∧
      run.1.registry.usable ⟨gate, 1, some ⟨0⟩⟩ = false := by
  intro gate ports ops run
  have hled : Led 1 run.1 run.2 := Led.start.foldl_record (by decide +kernel)
  have hnoted : (Publication.latest? run.2 ⟨3⟩).map (fun found =>
      (found.1.registry.routesAlong found.1.wires found.2, found.1.registry.hostOf gate)) =
      some (⟨[], [⟨gate, 1, some ⟨0⟩⟩]⟩, some ⟨0⟩) := by decide +kernel
  have hmarked : run.1.registry.descriptor? ⟨0⟩ = some ⟨"gate", none, true⟩ := by decide +kernel
  have hlast : (run.1.wiring 0).wires = [] ∧ run.1.recalcs = ⟨1, 0⟩ ∧
      run.1.registry.plugin? 5 = some ⟨"delay", none, false⟩ := by decide +kernel
  -- What was computed is all that is needed of the run.
  clear_value run
  obtain ⟨hroutes, -⟩ := hled.routes_follow_publication
  have hslot := hroutes ⟨3⟩
  obtain ⟨⟨pub, p⟩, hlatest, hfound⟩ := Option.map_eq_some_iff.mp hnoted
  obtain ⟨halong, hhost⟩ := Prod.mk.inj hfound
  rw [hlatest] at hslot
  obtain ⟨hread, husable⟩ := hslot
  rw [halong] at hread
  have hplugin := husable ⟨gate, 1, some ⟨0⟩⟩ (by rw [hread]; exact List.mem_singleton_self _)
  rw [hhost] at hplugin
  obtain ⟨old, now, -, hnow, -, -, hfailed⟩ := hplugin
  have hfailing : now = ⟨"gate", none, true⟩ := Option.some.inj (hnow.symm.trans hmarked)
  refine ⟨hlast.1, hlast.2.1, hlast.2.2, hread, ?_⟩
  rw [hfailed, hfailing]
  rfl

end Studio

end MixerRouting
