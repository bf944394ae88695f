import MixerRouting.Proofs.Studio.Operation

/-!
# The render thread leaves the topology alone

Each change of a wiring and each publication checks the mark of the render
thread before it does anything else. Operations of sends and channels reach
these checks on many ways, with work of their own before and in between. Here
they are told for a studio with the mark set: whatever is tried and whatever it
answers, all wirings with their indices, all snapshots that are there and the
count of recalculations stay as they are. Nothing is asked of the studio beside
the mark; its wirings need not come from changes.

Questions may be asked on any thread. The only one whose answer depends on the
thread is whether a send takes part.
-/
namespace MixerRouting

/-! ### Questions -/

/-- What may be asked about a wiring, with the type of the answer. -/
inductive WiringQuery : Type → Type
  | wires : WiringQuery (List Wire)
  | neighbours (p : PortId) (side : Side) : WiringQuery (List Wire)
  | count (p : PortId) (side : Side) : WiringQuery Nat
  | countUnlocked (p : PortId) (side : Side) : WiringQuery Nat
  | single (p : PortId) (side : Side) : WiringQuery (Except LookupError Wire)
  | find (src dest : PortId) : WiringQuery (Option Wire)
  | contains (w : Wire) : WiringQuery Bool
  | text : WiringQuery String
  | verify : WiringQuery (Except LookupError Unit)

inductive SendQuery : Type → Type
  | record : SendQuery SendRecord
  | isPrefader : SendQuery Bool
  | feedsSidechain : SendQuery Bool
  | faderPosition : SendQuery Float32
  | isActive : SendQuery Bool
  | destinationName : SendQuery (Except LookupError String)
  | targetTrack : SendQuery (Except LookupError (Option OwnerId))
  | targetSidechain : SendQuery (Option Bundle)
  | connections : SendQuery (List Wire)
  | isConnectedTo (target : Bundle) : SendQuery Bool
  | isSound : SendQuery Bool

/-- What may be asked about a studio. A send or a channel that is not there gives no answer. -/
inductive Query : Type → Type 1
  | wiring {α : Type} (m : Nat) (q : WiringQuery α) : Query α
  | send {α : Type} (ref : SendRef) (m : Nat) (q : SendQuery α) : Query (Option α)
  | channelPorts (channel : Nat) : Query (Option (List PortId))
  | routes (slot : RouteSlot) : Query Routes
  | usable (route : Route) : Query Bool
  | recalcs : Query Recalcs

namespace Desk

def ask (d : Desk) {α : Type} : WiringQuery α → α
  | .wires => d.wiring.wires
  | .neighbours p side => d.wiring.neighbours p side
  | .count p side => d.wiring.count p side
  | .countUnlocked p side => d.wiring.countUnlocked p side
  | .single p side => d.wiring.single p side
  | .find src dest => d.wiring.find? src dest
  | .contains w => d.wiring.contains w
  | .text => d.wiring.text
  | .verify => d.wiring.verify d.registry

end Desk

namespace Send

def ask (s : Send) (d : Desk) {α : Type} : SendQuery α → α
  | .record => s.record
  | .isPrefader => s.isPrefader
  | .feedsSidechain => s.feedsSidechain
  | .faderPosition => s.faderPosition
  | .isActive => s.isActive d
  | .destinationName => s.destinationName d.wiring d.registry
  | .targetTrack => s.targetTrack d.wiring d.registry
  | .targetSidechain => s.targetSidechain d.wiring
  | .connections => s.connections d.wiring
  | .isConnectedTo target => s.isConnectedTo d.wiring target
  | .isSound => s.isSound d.wiring

end Send

namespace Studio

def ask (st : Studio) {α : Type} : Query α → α
  | .wiring m q => (st.desk m).ask q
  | .send ref m q => (st.send? ref).map fun s => s.ask (st.desk m) q
  | .channelPorts c => (st.channel? c).map Channel.portIds
  | .routes slot => st.board.read slot
  | .usable route => st.registry.usable route
  | .recalcs => st.recalcs

/-- The same studio on the control thread. -/
def onControl (st : Studio) : Studio := { st with mark := { st.mark with rendering := false } }

end Studio

/-- Whether the answer comes from the published routes on the render thread and from the wiring
elsewhere. -/
def Query.picksPath {α : Type} : Query α → Bool
  | .send _ _ .isActive => true
  | _ => false

theorem Studio.ask_onControl (st : Studio) {α : Type} (q : Query α) (hq : q.picksPath = false) :
    st.onControl.ask q = st.ask q := by
  cases q with
  | wiring m q => cases q <;> rfl
  | send ref m q =>
    cases q with
    | isActive => cases hq
    | _ => rfl
  | _ => rfl

/-! ### Desks -/

namespace Desk
variable {d d' : Desk} (hr : d.rendering = true)
include hr

theorem edit_of_rendering {α : Type} (change : TopologyChange) (f : Wiring → α × Wiring) :
    d.edit change f = .error (.whileRendering change) := by
  simp only [edit, guardControl, hr]
  rfl

theorem perform_of_rendering (c : Change Wiring) :
    ∃ change, d.perform c = .error (.whileRendering change) := by
  cases c <;>
    simp only [perform, connect, disconnect, disconnectPort, disconnectPorts, replace, reset,
      restore, reindex, setBase, edit_of_rendering hr] <;>
    exact ⟨_, rfl⟩

theorem publish_of_rendering : d.publish = .error (.whileRendering .publish) := by
  simp only [publish, guardControl, hr]
  rfl

theorem recalc_of_rendering (soft : Bool) : ∃ e, d.recalc soft = .error e := by
  cases h : d.recalc soft with
  | error e => exact ⟨e, rfl⟩
  | ok d' => exact absurd ((recalc_eq_ok h).1.symm.trans hr) Bool.false_ne_true

/-- A series that is not refused is empty. -/
theorem eq_of_connectLocked {pairs : List (PortId × PortId)} (h : d.connectLocked pairs = .ok d') :
    d' = d := by
  cases pairs with
  | nil => exact (Except.ok.inj h).symm
  | cons pair rest =>
    rw [connectLocked_eq, hr] at h
    cases h

theorem eq_of_disconnectEach {gone : List Wire} (h : d.disconnectEach gone = .ok d') : d' = d := by
  cases gone with
  | nil => exact (Except.ok.inj h).symm
  | cons w rest =>
    rw [disconnectEach_eq, hr] at h
    cases h

end Desk

/-! ### Sends and channels -/

namespace Send
variable (s : Send) {d d' : Desk} (hr : d.rendering = true)
include hr

theorem desk_finish_of_rendering (recalc : Bool) : (s.finish d recalc).desk = d := by
  obtain ⟨e, he⟩ := Desk.recalc_of_rendering hr false
  unfold finish
  rw [he]
  split <;> rfl

theorem desk_disconnect_of_rendering (recalc : Bool) : (s.disconnect recalc d).desk = d := by
  unfold disconnect
  dsimp only
  split
  · rfl
  · split
    · rfl
    · next h =>
      obtain rfl := Desk.eq_of_disconnectEach hr h
      exact s.switchedOff.desk_finish_of_rendering hr recalc

theorem desk_connect_of_rendering (target : Bundle) (options : ConnectOptions) :
    (s.connect target options d).desk = d := by
  have hcleared := s.desk_disconnect_of_rendering hr false
  unfold connect
  generalize s.disconnect false d = cleared at hcleared
  obtain ⟨result, t, d₁⟩ := cleared
  obtain rfl : d₁ = d := hcleared
  split
  · rfl
  · cases result with
    | error e => rfl
    | ok =>
      dsimp only
      split
      · rfl
      · next h =>
        obtain rfl := Desk.eq_of_connectLocked hr h
        exact desk_finish_of_rendering _ hr options.recalc

theorem eq_of_connectToTap {prefader fader : Bundle}
    (h : s.connectToTap prefader fader d = .ok d') : d' = d := by
  unfold connectToTap at h
  generalize (if s.isPrefader then prefader else fader) = tap at h
  by_cases hs : tap.signal = s.signal
  · simp only [hs, if_true] at h
    cases hmade : d.connectLocked (tap.ports.zip s.inputs.ports) with
    | error e =>
      rw [hmade] at h
      cases h
    | ok d₁ =>
      rw [hmade] at h
      cases h
      exact Desk.eq_of_connectLocked hr hmade
  · simp only [hs, if_false] at h
    cases h

end Send

theorem Channel.eq_of_connectSends (c : Channel) {d d' : Desk} (hr : d.rendering = true)
    (h : c.connectSends d = .ok d') : d' = d := by
  unfold connectSends at h
  generalize c.sends = sends at h
  induction sends with
  | nil => exact (Except.ok.inj h).symm
  | cons s rest ih =>
    rw [List.foldlM_cons] at h
    obtain ⟨d₁, hfirst, hrest⟩ := exists_of_bind_eq_ok h
    obtain rfl := s.eq_of_connectToTap hr hfirst
    exact ih hrest

/-! ### The studio -/

namespace Studio

/-- The wirings with their indices, the snapshots and the count of recalculations are the same. New
ports may have got new slots with empty snapshots. -/
structure SameTopology (st st' : Studio) : Prop where
  wirings : st'.wirings = st.wirings
  board : st.board.Extends st'.board
  recalcs : st'.recalcs = st.recalcs

theorem SameTopology.refl (st : Studio) : st.SameTopology st := ⟨rfl, .refl _, rfl⟩

theorem SameTopology.trans {st st' st'' : Studio} (h : st.SameTopology st')
    (h' : st'.SameTopology st'') : st.SameTopology st'' :=
  ⟨h'.wirings.trans h.wirings, h.board.trans h'.board, h'.recalcs.trans h.recalcs⟩

section
variable {st : Studio} {m : Nat}

/-- Putting back a desk that is as it was taken. -/
theorem sameTopology_withDesk : st.SameTopology (st.withDesk m (st.desk m)) :=
  ⟨st.set_wiring m, .refl _, rfl⟩

theorem sameTopology_onDesk {ε α : Type} {f : Desk → Except ε (α × Desk)}
    (hf : ∀ answer d, f (st.desk m) = .ok (answer, d) → d = st.desk m) :
    st.SameTopology (st.onDesk m f).2 := by
  unfold onDesk
  split
  · next h =>
    obtain rfl := hf _ _ h
    exact sameTopology_withDesk
  · exact .refl st

theorem sameTopology_onDesk_ {ε : Type} {f : Desk → Except ε Desk}
    (hf : ∀ d, f (st.desk m) = .ok d → d = st.desk m) : st.SameTopology (st.onDesk_ m f).2 := by
  apply sameTopology_onDesk
  intro answer d h
  cases hd : f (st.desk m) with
  | error e =>
    rw [hd] at h
    cases h
  | ok d₁ =>
    rw [hd] at h
    cases h
    exact hf _ hd

theorem sameTopology_setSend (ref : SendRef) (t : Send) : st.SameTopology (st.setSend ref t) := by
  cases ref <;> exact ⟨rfl, .refl _, rfl⟩

theorem sameTopology_onSend (ref : SendRef) (s : Send) {f : Send → Desk → SendOutcome}
    (hf : (f s (st.desk m)).desk = st.desk m) : st.SameTopology (st.onSend ref s m f).2 := by
  have hdesk : (st.setSend ref (f s (st.desk m)).send).desk m = st.desk m := by cases ref <;> rfl
  have hback := @sameTopology_withDesk (st.setSend ref (f s (st.desk m)).send) m
  rw [hdesk] at hback
  unfold onSend
  dsimp only
  rw [hf]
  exact (sameTopology_setSend ref _).trans hback

variable (hr : st.mark.rendering = true)
include hr

theorem sameTopology_act (a : SendAction) : st.SameTopology (st.act m a).2 := by
  have ha := st.acts m a
  generalize st.act m a = result at ha
  cases ha with
  | absent => exact .refl st
  | @connect ref s hs target options =>
    exact sameTopology_onSend ref s (s.desk_connect_of_rendering hr target options)
  | @disconnect ref s hs recalc =>
    exact sameTopology_onSend ref s (s.desk_disconnect_of_rendering hr recalc)
  | @setAmount ref s hs amount => exact sameTopology_setSend ref _
  | @connectSends c channel hc =>
    exact sameTopology_onDesk_ fun d h => channel.eq_of_connectSends hr h

theorem sameTopology_work (m : Nat) (op : WiringOperation) : st.SameTopology (st.work m op).2 := by
  cases op with
  | change c =>
    apply sameTopology_onDesk (f := fun d => d.perform (c.map st.wiring))
    intro answer d h
    obtain ⟨change, he⟩ := Desk.perform_of_rendering (d := st.desk m) hr (c.map st.wiring)
    rw [he] at h
    cases h
  | publish =>
    apply sameTopology_onDesk (f := Desk.publish)
    intro answer d h
    rw [Desk.publish_of_rendering (d := st.desk m) hr] at h
    cases h
  | recalc soft =>
    apply sameTopology_onDesk_ (f := fun d => d.recalc soft)
    intro d h
    obtain ⟨e, he⟩ := Desk.recalc_of_rendering (d := st.desk m) hr soft
    rw [he] at h
    cases h
  | act a => exact sameTopology_act hr a
  | connectToTap ref prefader fader =>
    cases hs : st.send? ref with
    | none =>
      simp only [work, hs]
      exact .refl st
    | some s =>
      simp only [work, hs]
      exact sameTopology_onDesk_ fun d h => s.eq_of_connectToTap hr h
  | disconnectChannel c =>
    cases hc : st.channel? c with
    | none =>
      simp only [work, hc]
      exact .refl st
    | some channel =>
      simp only [work, hc]
      apply sameTopology_onDesk
      intro answer d h
      rw [Channel.disconnectAll, Desk.disconnectPorts,
        Desk.edit_of_rendering (d := st.desk m) hr] at h
      cases h

/-- One operation with the mark set, whatever it answers. -/
theorem sameTopology_perform (op : Operation) : st.SameTopology (st.perform op).2 := by
  by_cases hreg : ∃ o, op = .registry o
  · obtain ⟨o, rfl⟩ := hreg
    exact ⟨rfl, .refl _, rfl⟩
  · by_cases hop : ∀ m w, op ≠ .work m w
    · have happ : op.applies st = true := by
        cases op with
        | work m w => exact absurd rfl (hop m w)
        | registry o => exact absurd ⟨o, rfl⟩ hreg
        | _ => rfl
      have haside := aside_perform happ hop
      exact ⟨haside.wirings, haside.grown, haside.recalcs⟩
    · push Not at hop
      obtain ⟨m, w, rfl⟩ := hop
      exact sameTopology_work hr m w

end

/-- Whether the mark is set at the start of each operation of a run. -/
def rendersThrough (st : Studio) : List Operation → Bool
  | [] => true
  | op :: rest => st.mark.rendering && (st.perform op).2.rendersThrough rest

def runOperations (st : Studio) (ops : List Operation) : Studio :=
  ops.foldl (fun st op => (st.perform op).2) st

theorem sameTopology_run {st : Studio} {ops : List Operation} (h : st.rendersThrough ops = true) :
    st.SameTopology (st.runOperations ops) := by
  induction ops generalizing st with
  | nil => exact .refl st
  | cons op rest ih =>
    rw [rendersThrough, Bool.and_eq_true] at h
    exact (sameTopology_perform h.1 op).trans (ih h.2)

/-- With the mark set, every operation leaves all wirings with their indices, all snapshots and the
count of recalculations as they are, whatever it answers, and so does every run of operations
during which the mark stays set. Every question has the answer that it has on the control thread,
apart from whether a send takes part: here the published routes decide that, there the wiring. This
is the build with debug assertions, in which a refused change stops before it starts; a build
without them reports the change and goes on with it. -/
theorem topology_of_rendering {st : Studio} (hr : st.mark.rendering = true) :
    (∀ op : Operation, let st' := (st.perform op).2
      st'.wirings = st.wirings ∧ (∀ slot, st'.board.read slot = st.board.read slot) ∧
        st'.recalcs = st.recalcs) ∧
    (∀ ops : List Operation, st.rendersThrough ops = true → let st' := st.runOperations ops
      st'.wirings = st.wirings ∧ (∀ slot, st'.board.read slot = st.board.read slot) ∧
        st'.recalcs = st.recalcs) ∧
    (∀ (α : Type) (q : Query α), q.picksPath = false → st.ask q = st.onControl.ask q) ∧
    ∀ ref m s, st.send? ref = some s →
      st.ask (.send ref m .isActive) =
        some (s.isOn && s.routeUsable st.registry st.board) ∧
      st.onControl.ask (.send ref m .isActive) =
        some (s.isOn && s.wireUsable (st.wiring m) st.registry) := by
  refine ⟨?_, ?_, fun α q hq => (st.ask_onControl q hq).symm, ?_⟩
  · intro op
    have h := sameTopology_perform hr op
    exact ⟨h.wirings, h.board.read, h.recalcs⟩
  · intro ops hops
    have h := sameTopology_run hops
    exact ⟨h.wirings, h.board.read, h.recalcs⟩
  · intro ref m s hs
    have hsame : st.onControl.send? ref = some s := by
      rw [← hs]
      cases ref <;> rfl
    have hdesk : (st.desk m).rendering = true := hr
    constructor
    · rw [ask, hs, Option.map_some, Send.ask, Send.isActive, if_pos hdesk]
      rfl
    · rw [ask, hsame]
      rfl

/-- The wire of a send was taken away after it was published. On the render thread the send still
takes part; leading it anew, clearing its channel and recalculating change nothing. -/
theorem topology_of_rendering_of_stale_route :
    let bus : PortId := ⟨.trackInput 2, .event, .input, 0, .none, none⟩
    let out : PortId := ⟨.send 1 0, .event, .output, 0, .none, none⟩
    let ports := ((Send.create 1 0 .event {}).run {}).1.faces
    let st := (Studio.empty 1).runOperations [
      .addSend 1 0 .event {}, .registry (.registerPorts ports), .registerFresh bus "in",
      .work 0 (.act (.connect (.loose 0) (.midi bus) { recalc := true })),
      .work 0 (.change (.disconnect out bus)), .work 0 (.change (.connect bus out 1 true true)),
      .enter]
    let tried : List Operation := [
      .work 0 (.act (.connect (.loose 0) (.midi bus) { recalc := true })),
      .work 0 (.act (.disconnect (.loose 0) true)), .work 0 (.change (.disconnectPort out)),
      .registry (.unregisterPorts ports), .work 0 (.recalc false)]
    let st' := st.runOperations tried
    st.mark.rendering = true ∧ st'.wirings = st.wirings ∧
      st'.board.read ⟨3⟩ = ⟨[], [⟨bus, 1, none⟩]⟩ ∧ st'.recalcs = ⟨1, 0⟩ ∧
      st.ask (.send (.loose 0) 0 .isActive) = some true ∧
      st.onControl.ask (.send (.loose 0) 0 .isActive) = some false ∧
      st.ask (.wiring 0 (.count out .source)) = 1 := by
  intro bus out ports st tried st'
  have hr : st.mark.rendering = true := by decide +kernel
  have hthrough : st.rendersThrough tried = true := by decide +kernel
  have hread : st.board.read ⟨3⟩ = ⟨[], [⟨bus, 1, none⟩]⟩ := by decide +kernel
  have hcount : st.onControl.ask (.wiring 0 (.count out .source)) = 1 := by decide +kernel
  have hsend : (st.send? (.loose 0)).map (fun s => (s.isOn, s.routeUsable st.registry st.board,
      s.wireUsable (st.wiring 0) st.registry)) = some (true, true, false) := by decide +kernel
  have hrecalcs : st.recalcs = ⟨1, 0⟩ := by decide +kernel
  -- What was computed is all that is needed of the studio.
  clear_value st
  obtain ⟨s, hs, hfound⟩ := Option.map_eq_some_iff.mp hsend
  simp only [Prod.mk.injEq] at hfound
  obtain ⟨hon, hroute, hwire⟩ := hfound
  obtain ⟨-, hrun, hask, hactive⟩ := topology_of_rendering hr
  obtain ⟨hw, hb, hc⟩ := hrun tried hthrough
  obtain ⟨hrender, hcontrol⟩ := hactive (.loose 0) 0 s hs
  rw [hon, hroute] at hrender
  rw [hon, hwire] at hcontrol
  exact ⟨hr, hw, (hb ⟨3⟩).trans hread, hc.trans hrecalcs, hrender, hcontrol,
    (hask Nat (.wiring 0 (.count out .source)) rfl).trans hcount⟩

end Studio

end MixerRouting
