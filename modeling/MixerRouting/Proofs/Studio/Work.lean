import MixerRouting.Proofs.Routing.Recalculation
import MixerRouting.Proofs.Send.Runs
import MixerRouting.Proofs.Studio.Contents

/-!
# Work on a wiring

All that can be done on one of the wirings of a studio, on the render thread or
elsewhere: the changes of its wires, publishing, recalculating, and what sends
and channels do. Each of them leaves the board alone, or publishes the wiring as
the operation leaves it. The second happens only if it was asked for and if the
operation succeeds.
-/
namespace MixerRouting

/-! ### What happens to a desk -/

namespace Desk

/-- Only the wiring is another one. -/
def Edits (d d' : Desk) : Prop := ∃ g : Wiring, g.Reachable ∧ d' = { d with wiring := g }

/-- The wiring is another one, and its routes are on the board. -/
def Publishes (d d' : Desk) : Prop :=
  ∃ (g : Wiring) (recalcs : Recalcs), g.Reachable ∧
    d' = { d with wiring := g, board := g.published d.registry d.board, recalcs }

theorem edit_eq_ok {α : Type} {d d' : Desk} {change : TopologyChange} {f : Wiring → α × Wiring}
    {answer : α} (h : d.edit change f = .ok (answer, d')) :
    d' = { d with wiring := (f d.wiring).2 } := by
  rcases Bool.eq_false_or_eq_true d.rendering with hc | hc
  · simp only [edit, guardControl, hc] at h
    cases h
  · rw [edit_of_control hc] at h
    cases h
    rfl

section
variable {d d' : Desk}

theorem Edits.refl (h : d.wiring.Reachable) : d.Edits d := ⟨d.wiring, h, rfl⟩

theorem perform_eq_ok {c : Change Wiring} {answer : Answer}
    (hd : d.perform c = .ok (answer, d')) : d' = { d with wiring := (d.wiring.apply c).2 } := by
  cases hc : d.rendering with
  | false =>
    rw [perform_of_control hc] at hd
    cases hd
    rw [hc]
  | true =>
    cases c <;>
      simp only [perform, connect, disconnect, disconnectPort, disconnectPorts, replace, reset,
        restore, reindex, setBase, edit, guardControl, hc] at hd <;>
      cases hd

theorem edits_of_perform (h : d.wiring.Reachable) {c : Change Wiring}
    (hsource : ∀ other, c.source? = some other → other.Reachable) {answer : Answer}
    (hd : d.perform c = .ok (answer, d')) : d.Edits d' := by
  obtain rfl := perform_eq_ok hd
  exact ⟨_, .change c h hsource, rfl⟩

theorem edits_of_disconnectPorts (h : d.wiring.Reachable) {ports : List PortId} {gone : Nat}
    (hd : d.disconnectPorts ports = .ok (gone, d')) : d.Edits d' := by
  obtain rfl := edit_eq_ok hd
  exact ⟨_, .change (.disconnectPorts ports) h nofun, rfl⟩

theorem publish_eq_ok {count : Nat} (hd : d.publish = .ok (count, d')) :
    d' = { d with board := d.wiring.published d.registry d.board } := by
  unfold publish guardControl at hd
  cases hc : d.rendering with
  | true =>
    rw [hc] at hd
    cases hd
  | false =>
    rw [hc] at hd
    cases hd
    rfl

theorem publishes_of_publish (h : d.wiring.Reachable) {count : Nat}
    (hd : d.publish = .ok (count, d')) : d.Publishes d' := by
  obtain rfl := publish_eq_ok hd
  exact ⟨d.wiring, d.recalcs, h, rfl⟩

theorem publishes_of_recalc (h : d.wiring.Reachable) {soft : Bool} (hd : d.recalc soft = .ok d') :
    d.Publishes d' := by
  obtain ⟨-, -, recalcs, rfl⟩ := recalc_eq_ok hd
  exact ⟨d.wiring, recalcs, h, rfl⟩

end

end Desk

/-! ### What sends do -/

namespace Send

/-- The outcome of an operation on a send. If it is one that comes to a recalculation, it publishes
when it succeeds; otherwise it edits the wires at most. -/
structure Works (s : Send) (d : Desk) (recalculates : Bool) (o : SendOutcome) : Prop where
  faces : o.send.faces = s.faces
  desk : d.Edits o.desk ∧ (recalculates = true → o.result.isOk = false) ∨
    recalculates = true ∧ o.result.isOk = true ∧ d.Publishes o.desk

theorem works_finish {s t : Send} (ht : t.faces = s.faces) {d : Desk} {g : Wiring}
    (hg : g.Reachable) (recalc : Bool) :
    s.Works d recalc (t.finish { d with wiring := g } recalc) := by
  refine ⟨by rw [finish_send, ht], ?_⟩
  unfold finish
  split
  · next hasked =>
    split
    · next hd =>
      obtain ⟨g', recalcs, hg', rfl⟩ :=
        Desk.publishes_of_recalc (d := { d with wiring := g }) hg hd
      exact .inr ⟨hasked, rfl, g', recalcs, hg', rfl⟩
    · exact .inl ⟨⟨g, hg, rfl⟩, fun _ => rfl⟩
  · next hquiet => exact .inl ⟨⟨g, hg, rfl⟩, fun hasked => absurd hasked hquiet⟩

/-- Whether there is something to disconnect. -/
def isUsed (s : Send) (g : Wiring) : Bool := s.isOn || !(s.wiresFrom g).isEmpty

variable (s : Send) {d : Desk} (h : d.wiring.Reachable)
include h

theorem works_disconnect (recalc : Bool) :
    s.Works d (recalc && s.isUsed d.wiring) (s.disconnect recalc d) := by
  rw [disconnect_eq]
  split
  · exact ⟨rfl, .inl ⟨.refl h, fun _ => rfl⟩⟩
  · split
    next hunused =>
      have hno : s.isUsed d.wiring = false := by simpa [isUsed] using hunused
      rw [hno, Bool.and_false]
      exact ⟨rfl, .inl ⟨⟨_, h.disconnectEach _, rfl⟩, nofun⟩⟩
    next hused =>
      have hyes : s.isUsed d.wiring = true := by
        rw [isUsed]
        revert hused
        cases s.isOn <;> cases (s.wiresFrom d.wiring).isEmpty <;> simp
      rw [hyes, Bool.and_true]
      exact works_finish (s := s) (t := s.switchedOff) (d := d) rfl (h.disconnectEach _) recalc

theorem works_connect (target : Bundle) (options : ConnectOptions) :
    s.Works d options.recalc (s.connect target options d) := by
  have hcleared := s.works_disconnect h false
  unfold connect
  generalize s.disconnect false d = cleared at hcleared ⊢
  obtain ⟨result, t, d'⟩ := cleared
  obtain ⟨g, hg, rfl⟩ : d.Edits d' := by
    rcases hcleared.desk with ⟨he, -⟩ | ⟨hno, -⟩
    · exact he
    · cases hno
  have hleft : ∀ e, s.Works d options.recalc ⟨.error e, t, { d with wiring := g }⟩ :=
    fun e => ⟨hcleared.faces, .inl ⟨⟨g, hg, rfl⟩, fun _ => rfl⟩⟩
  split
  · exact ⟨rfl, .inl ⟨.refl h, fun _ => rfl⟩⟩
  · cases result with
    | error e => exact hleft e
    | ok =>
      simp only [Desk.connectLocked_eq]
      split
      · next hd => exact hleft _
      · next hd =>
        split at hd
        · cases hd
        · cases hd
          have hfaces : (t.switchedOn (options.sidechain && target.signal = .audio)).faces =
              s.faces := hcleared.faces
          exact works_finish (d := d) hfaces (hg.connectLocked _) _

end Send

/-! ### Operations on a wiring -/

inductive WiringOperation where
  /-- A reset may take over one of the other wirings. -/
  | change (c : Change Nat)
  | publish
  | recalc (soft : Bool)
  | act (a : SendAction)
  | connectToTap (ref : SendRef) (prefader fader : Bundle)
  /-- Removes all wires of a channel. -/
  | disconnectChannel (channel : Nat)

namespace WiringOperation

/-- Whether routes are to be published, by itself or in the end. -/
def asks : WiringOperation → Bool
  | .publish => true
  | .recalc _ => true
  | .act (.connect _ _ options) => options.recalc
  | .act (.disconnect _ asked) => asked
  | _ => false

end WiringOperation

namespace Studio

/-- One operation; answers whether it succeeded. Nothing happens if there is no such send or
channel. -/
def work (st : Studio) (m : Nat) : WiringOperation → Bool × Studio
  | .change c => (st.onDesk m fun d => d.perform (c.map st.wiring)).map Except.isOk id
  | .publish => (st.onDesk m Desk.publish).map Except.isOk id
  | .recalc soft => (st.onDesk_ m fun d => d.recalc soft).map Except.isOk id
  | .act a => (st.act m a).map Except.isOk id
  | .connectToTap ref prefader fader =>
    match st.send? ref with
    | some s => (st.onDesk_ m (s.connectToTap prefader fader)).map Except.isOk id
    | none => (true, st)
  | .disconnectChannel c =>
    match st.channel? c with
    | some channel => (st.onDesk m channel.disconnectAll).map Except.isOk id
    | none => (true, st)

/-- Whether an operation comes to a publication, unless it fails before: it asks for one, and the
send that it is for is there and has something to disconnect or to connect. -/
def publishes (st : Studio) (m : Nat) : WiringOperation → Bool
  | .publish => true
  | .recalc _ => true
  | .act (.connect ref _ options) => options.recalc && (st.send? ref).isSome
  | .act (.disconnect ref asked) =>
    asked && (st.send? ref).any fun s => s.isUsed (st.wiring m)
  | _ => false

theorem asks_of_publishes {st : Studio} {m : Nat} {op : WiringOperation}
    (h : st.publishes m op = true) : op.asks = true := by
  cases op with
  | publish => rfl
  | recalc soft => rfl
  | act a =>
    cases a with
    | connect ref target options => exact (Bool.and_eq_true_iff.mp h).1
    | disconnect ref asked => exact (Bool.and_eq_true_iff.mp h).1
    | _ => cases h
  | _ => cases h

/-- The studio after work that left a desk behind. -/
structure Worked (st : Studio) (m : Nat) (d : Desk) (st' : Studio) : Prop where
  wirings : st'.wirings = st.wirings.set m d.wiring
  board : st'.board = d.board
  recalcs : st'.recalcs = d.recalcs
  registry : st'.registry = st.registry
  faces : st'.faces = st.faces

section
variable (st : Studio) (ref : SendRef) (t : Send)

theorem board_setSend : (st.setSend ref t).board = st.board := by
  cases ref <;> rfl

theorem recalcs_setSend : (st.setSend ref t).recalcs = st.recalcs := by
  cases ref <;> rfl

theorem registry_setSend : (st.setSend ref t).registry = st.registry := by
  cases ref <;> rfl

end

theorem worked_withDesk (st : Studio) (m : Nat) (d : Desk) : st.Worked m d (st.withDesk m d) :=
  ⟨rfl, rfl, rfl, rfl, rfl⟩

theorem worked_refl (st : Studio) (m : Nat) : st.Worked m (st.desk m) st :=
  ⟨(st.set_wiring m).symm, rfl, rfl, rfl, rfl⟩

/-- What an operation leaves behind, with the answer whether it succeeded. An operation that comes
to a publication leaves edited wires only if it fails; no other operation publishes. -/
inductive Outcome (st : Studio) (m : Nat) (op : WiringOperation) : Bool × Studio → Prop
  | edited {done : Bool} {d : Desk} {st' : Studio} (worked : st.Worked m d st')
    (edits : (st.desk m).Edits d) (failed : st.publishes m op = true → done = false) :
    Outcome st m op (done, st')
  | published {d : Desk} {st' : Studio} (worked : st.Worked m d st')
    (publishes : (st.desk m).Publishes d) (due : st.publishes m op = true) :
    Outcome st m op (true, st')

theorem onDesk_of_ok {ε : Type} {st : Studio} {m : Nat} {f : Desk → Except ε Desk} {d : Desk}
    (h : f (st.desk m) = .ok d) : st.onDesk_ m f = (.ok (), st.withDesk m d) := by
  simp only [onDesk_, onDesk, h, Except.map]

theorem onDesk_of_error {ε : Type} {st : Studio} {m : Nat} {f : Desk → Except ε Desk} {e : ε}
    (h : f (st.desk m) = .error e) : st.onDesk_ m f = (.error e, st) := by
  simp only [onDesk_, onDesk, h, Except.map]

section
variable {st : Studio} {m : Nat} {op : WiringOperation} (hg : (st.wiring m).Reachable)
include hg

theorem Outcome.idle (hop : st.publishes m op = false) : st.Outcome m op (true, st) :=
  .edited (st.worked_refl m) (.refl hg) fun h => absurd (hop.symm.trans h) Bool.false_ne_true

/-- An operation that edits the wires if it succeeds. -/
theorem outcome_onDesk {ε α : Type} (hop : st.publishes m op = false)
    {f : Desk → Except ε (α × Desk)}
    (hf : ∀ answer d, f (st.desk m) = .ok (answer, d) → (st.desk m).Edits d) :
    st.Outcome m op ((st.onDesk m f).map Except.isOk id) := by
  have hno : st.publishes m op = true → ∀ done : Bool, done = false :=
    fun h => absurd (hop.symm.trans h) Bool.false_ne_true
  unfold onDesk
  split
  · next hd => exact .edited (st.worked_withDesk m _) (hf _ _ hd) fun h => hno h _
  · exact .edited (st.worked_refl m) (.refl hg) fun h => hno h _

theorem outcome_onDesk_ {ε : Type} (hop : st.publishes m op = false) {f : Desk → Except ε Desk}
    (hf : ∀ d, f (st.desk m) = .ok d → (st.desk m).Edits d) :
    st.Outcome m op ((st.onDesk_ m f).map Except.isOk id) := by
  have hno : st.publishes m op = true → ∀ done : Bool, done = false :=
    fun h => absurd (hop.symm.trans h) Bool.false_ne_true
  cases hd : f (st.desk m) with
  | error e =>
    rw [onDesk_of_error hd]
    exact .edited (st.worked_refl m) (.refl hg) fun h => hno h _
  | ok d =>
    rw [onDesk_of_ok hd]
    exact .edited (st.worked_withDesk m d) (hf d hd) fun h => hno h _

omit hg in
theorem outcome_onSend {recalculates : Bool} (hop : st.publishes m op = recalculates)
    {ref : SendRef} {s : Send} (hs : st.send? ref = some s) {f : Send → Desk → SendOutcome}
    (hw : s.Works (st.desk m) recalculates (f s (st.desk m))) :
    st.Outcome m op ((st.onSend ref s m f).map Except.isOk id) := by
  unfold onSend
  generalize f s (st.desk m) = o at hw
  have hworked : st.Worked m o.desk ((st.setSend ref o.send).withDesk m o.desk) := by
    refine ⟨?_, rfl, rfl, registry_setSend .., faces_setSend hs hw.faces⟩
    rw [← wirings_setSend st ref o.send]
    rfl
  rcases hw.desk with ⟨hedits, hfailed⟩ | ⟨hdue, hok, hpublishes⟩
  · exact .edited hworked hedits fun h => hfailed (hop.symm.trans h)
  · show st.Outcome m op (o.result.isOk, (st.setSend ref o.send).withDesk m o.desk)
    rw [hok]
    exact .published hworked hpublishes (hop.trans hdue)

end

theorem publishes_of_missing {st : Studio} {a : SendAction} (h : st.present a = false) (m : Nat) :
    st.publishes m (.act a) = false := by
  cases a with
  | connect ref target options => exact (congrArg (options.recalc && ·) h).trans (Bool.and_false _)
  | disconnect ref asked =>
    have hnone : st.send? ref = none := Option.not_isSome_iff_eq_none.mp (Bool.not_eq_true _ ▸ h)
    rw [publishes, hnone]
    exact Bool.and_false _
  | _ => rfl

theorem outcome_act {st : Studio} {m : Nat} (hg : (st.wiring m).Reachable) (a : SendAction) :
    st.Outcome m (.act a) ((st.act m a).map Except.isOk id) := by
  have ha := st.acts m a
  generalize st.act m a = result at ha
  cases ha with
  | absent _ hmissing => exact .idle hg (publishes_of_missing hmissing m)
  | @connect ref s hs target options =>
    have hdue : st.publishes m (.act (.connect ref target options)) = options.recalc := by
      rw [publishes, hs]
      exact Bool.and_true _
    exact outcome_onSend hdue hs (Send.works_connect _ hg target options)
  | @disconnect ref s hs recalc =>
    have hdue : st.publishes m (.act (.disconnect ref recalc)) =
        (recalc && s.isUsed (st.wiring m)) := by
      rw [publishes, hs]
      rfl
    exact outcome_onSend hdue hs (Send.works_disconnect s hg recalc)
  | setAmount hs amount =>
    refine .edited (d := st.desk m)
      ⟨?_, board_setSend .., recalcs_setSend .., registry_setSend .., faces_setSend hs rfl⟩
      (.refl hg) nofun
    exact (wirings_setSend ..).trans (st.set_wiring m).symm
  | @connectSends c channel =>
    apply outcome_onDesk_ hg rfl
    intro d hd
    obtain ⟨g, rfl, hr, -⟩ := channel.connectSends_eq_ok hg hd
    exact ⟨g, hr, rfl⟩

/-- Work on any wiring, where all wirings come from changes. -/
theorem outcome_work {st : Studio} (hg : ∀ m, (st.wiring m).Reachable) (m : Nat)
    (op : WiringOperation) : st.Outcome m op (st.work m op) := by
  cases op with
  | change c =>
    have hsource : ∀ other, (c.map st.wiring).source? = some other → other.Reachable := by
      intro other ho
      cases c with
      | reset k =>
        obtain ⟨n, -, rfl⟩ := Option.map_eq_some_iff.mp ho
        exact hg n
      | _ => cases ho
    exact outcome_onDesk (f := fun d => d.perform (c.map st.wiring)) (hg m) rfl
      fun answer d hd => Desk.edits_of_perform (hg m) hsource hd
  | publish =>
    show st.Outcome m .publish ((st.onDesk m Desk.publish).map Except.isOk id)
    unfold onDesk
    split
    · next hd =>
      exact .published (st.worked_withDesk m _) (Desk.publishes_of_publish (hg m) hd) rfl
    · exact .edited (st.worked_refl m) (.refl (hg m)) fun _ => rfl
  | recalc soft =>
    show st.Outcome m (.recalc soft) ((st.onDesk_ m fun d => d.recalc soft).map Except.isOk id)
    cases hd : (st.desk m).recalc soft with
    | error e =>
      rw [onDesk_of_error hd]
      exact .edited (st.worked_refl m) (.refl (hg m)) fun _ => rfl
    | ok d =>
      rw [onDesk_of_ok hd]
      exact .published (st.worked_withDesk m d) (Desk.publishes_of_recalc (hg m) hd) rfl
  | act a => exact outcome_act (hg m) a
  | connectToTap ref prefader fader =>
    cases hs : st.send? ref with
    | none =>
      simp only [work, hs]
      exact .idle (hg m) rfl
    | some s =>
      simp only [work, hs]
      apply outcome_onDesk_ (hg m) rfl
      intro d hd
      obtain ⟨g, rfl, hr, -⟩ := s.connectToTap_eq_ok (hg m) hd
      exact ⟨g, hr, rfl⟩
  | disconnectChannel c =>
    cases hc : st.channel? c with
    | none =>
      simp only [work, hc]
      exact .idle (hg m) rfl
    | some channel =>
      simp only [work, hc]
      apply outcome_onDesk (hg m) rfl
      intro answer d hd
      exact Desk.edits_of_disconnectPorts (hg m) hd

end Studio

end MixerRouting
