import MixerRouting.Proofs.Routing.Resolvable
import MixerRouting.Proofs.Studio.Channels

/-!
# Keeping a wiring resolvable

Whoever takes ports or plugins away first removes all wires that end there. If
nothing else is ever unregistered, and wires are made by sends only, the ends of
all wires of a wiring stay registered for good. Then a recalculation on the
control thread has no reason to fail, and neither has a connection once its
target was admitted.

A step is one operation, or a removal of wires that is followed by taking
something away if it succeeds. While rendering it does not succeed, and nothing
is taken away.
-/
namespace MixerRouting

inductive UpkeepStep where
  | single (op : Operation)
  /-- Removes all wires of a channel and unregisters its ports. -/
  | tearDown (channel : Nat)
  | removePort (port : PortFace)
  /-- Removes the wires of some ports and unregisters a plugin. -/
  | removePlugin (id : OwnerId) (ports : List PortId)

/-- Work that makes no wire, or makes wires between registered ports only: sends look up both
ports, and a channel is tapped when its ports are registered. -/
def WiringOperation.keepsResolving (st : Studio) : WiringOperation → Bool
  | .change c => c.removes
  | .act (.connectSends c) =>
    ((st.channel? c).map fun channel => channel.portIds.all st.registry.containsPort).getD true
  | .connectToTap .. => false
  | _ => true

/-- Other wirings may be worked on at will. -/
def Operation.keepsResolving (st : Studio) (m : Nat) : Operation → Bool
  | .work k op => k ≠ m || op.keepsResolving st
  | .registry op => op.keepsPorts
  | _ => true

/-- What the upkeep of a wiring allows. -/
def UpkeepStep.allowed (st : Studio) (m : Nat) : UpkeepStep → Bool
  | .single op => op.applies st && op.keepsResolving st m
  | .tearDown _ => m < st.wirings.length
  | .removePort _ => m < st.wirings.length
  | .removePlugin id ports => m < st.wirings.length &&
    (st.wiring m).endpoints.all fun p => p.owner.plugin? ≠ some id || p ∈ ports

namespace Studio

/-- One operation, and another one if it succeeds. -/
def andThen (st : Studio) (op next : Operation) : Studio :=
  if (st.perform op).1 then ((st.perform op).2.perform next).2 else (st.perform op).2

def keepUp (st : Studio) (m : Nat) : UpkeepStep → Studio
  | .single op => (st.perform op).2
  | .tearDown c =>
    match st.channel? c with
    | some channel =>
      st.andThen (.work m (.disconnectChannel c)) (.registry (.unregisterPorts channel.faces))
    | none => st
  | .removePort port =>
    st.andThen (.work m (.change (.disconnectPort port.id))) (.registry (.unregisterPorts [port]))
  | .removePlugin id ports =>
    st.andThen (.work m (.change (.disconnectPorts ports))) (.registry (.unregisterPlugin id))

/-- What the upkeep of a wiring leads to, from some state on. -/
inductive KeptUp (m : Nat) (start : Studio) : Studio → Prop
  | start : KeptUp m start start
  | step {st : Studio} (step : UpkeepStep) : KeptUp m start st → step.allowed st m →
    KeptUp m start (st.keepUp m step)

/-- Whether steps are allowed one after the other. -/
def allowsAll (st : Studio) (m : Nat) : List UpkeepStep → Bool
  | [] => true
  | step :: rest => step.allowed st m && (st.keepUp m step).allowsAll m rest

theorem KeptUp.foldl {m : Nat} {start st : Studio} (h : KeptUp m start st) {steps : List UpkeepStep}
    (hsteps : st.allowsAll m steps) :
    KeptUp m start (steps.foldl (fun st step => st.keepUp m step) st) := by
  induction steps generalizing st with
  | nil => exact h
  | cons step rest ih =>
    rw [allowsAll, Bool.and_eq_true] at hsteps
    exact ih (h.step step hsteps.1) hsteps.2

/-- Every end of every wire of a wiring resolves. -/
def Resolving (st : Studio) (m : Nat) : Prop := (st.wiring m).Resolves st.registry

/-! ### One operation -/

theorem registry_work (st : Studio) (hs : st.Sound) (m : Nat) (op : WiringOperation) :
    (st.work m op).2.registry = st.registry := by
  have ho := outcome_work hs.wiring m op
  generalize st.work m op = outcome at ho
  cases ho with
  | edited hw => exact hw.registry
  | published hw => exact hw.registry

/-- Removing all wires of a channel is a change like others. -/
theorem work_disconnectChannel {st : Studio} {c : Nat} {channel : Channel}
    (hc : st.channel? c = some channel) (m : Nat) :
    st.work m (.disconnectChannel c) = st.work m (.change (.disconnectPorts channel.portIds)) := by
  simp only [work, hc, onDesk, Channel.disconnectAll, Change.map, Desk.perform]
  cases (st.desk m).disconnectPorts channel.portIds <;> rfl

theorem wiring_work_of_ne {st : Studio} (hs : st.Sound) {m k : Nat} (hk : k ≠ m)
    (op : WiringOperation) : (st.work k op).2.wiring m = st.wiring m := by
  have hother : ∀ {d : Desk} {st' : Studio}, st.Worked k d st' → st'.wiring m = st.wiring m := by
    intro d st' hw
    rw [wiring, hw.wirings, List.getElem?_set_ne hk]
    rfl
  have ho := outcome_work hs.wiring k op
  generalize st.work k op = outcome at ho
  cases ho with
  | edited hw => exact hother hw
  | published hw => exact hother hw

section
variable {st : Studio} (hs : st.Sound) {m : Nat} (h : st.Resolving m) (hm : m < st.wirings.length)
include h hm

theorem Resolving.onDesk {ε α : Type} {f : Desk → Except ε (α × Desk)}
    (hf : ∀ answer d, f (st.desk m) = .ok (answer, d) → d.wiring.Resolves st.registry) :
    (st.onDesk m f).2.Resolving m := by
  unfold Studio.onDesk
  split
  · next answer d hd =>
    unfold Resolving
    rw [wiring_withDesk hm]
    exact hf answer d hd
  · exact h

theorem Resolving.onDesk_ {ε : Type} {f : Desk → Except ε Desk}
    (hf : ∀ d, f (st.desk m) = .ok d → d.wiring.Resolves st.registry) :
    (st.onDesk_ m f).2.Resolving m := by
  cases hd : f (st.desk m) with
  | error e =>
    rw [onDesk_of_error hd]
    exact h
  | ok d =>
    rw [onDesk_of_ok hd]
    unfold Resolving
    rw [wiring_withDesk hm]
    exact hf d hd

omit h in
theorem resolving_onSend {ref : SendRef} {s : Send} {f : Send → Desk → SendOutcome}
    (hf : (f s (st.desk m)).desk.wiring.Resolves st.registry) :
    (st.onSend ref s m f).2.Resolving m := by
  have hlength : m < (st.setSend ref (f s (st.desk m)).send).wirings.length := by
    rw [wirings_setSend]
    exact hm
  unfold Resolving Studio.onSend
  rw [wiring_withDesk hlength]
  show Wiring.Resolves _ (st.setSend ref _).registry
  rw [registry_setSend]
  exact hf

include hs

theorem Resolving.act (hmade : st.ChannelsMade) (a : SendAction)
    (ha : (WiringOperation.act a).keepsResolving st) : (st.act m a).2.Resolving m := by
  have hacts := st.acts m a
  generalize st.act m a = result at hacts
  cases hacts with
  | absent => exact h
  | @connect ref s hsend target options =>
    exact resolving_onSend hm (s.resolves_connect (d := st.desk m) (hs.wiring m) h target options)
  | @disconnect ref s hsend recalc =>
    exact resolving_onSend hm (Send.resolves_disconnect (d := st.desk m) h s recalc)
  | setAmount hsend amount =>
    unfold Resolving Studio.wiring
    rw [wirings_setSend, registry_setSend]
    exact h
  | @connectSends c channel hc =>
    obtain ⟨track, signal, settings, hchannel⟩ := hmade channel (List.mem_of_getElem? hc)
    have hregistered : ∀ p ∈ channel.portIds, st.registry.containsPort p = true := by
      simp only [WiringOperation.keepsResolving, hc, Option.map_some, Option.getD_some,
        List.all_eq_true] at ha
      exact ha
    have hports : ∀ p ∈ channel.portIds, st.registry.flaw? p = none := by
      intro p hp
      refine Registry.flaw?_eq_none_iff.mpr ⟨hregistered p hp, ?_⟩
      intro id hid
      obtain ⟨f, hf, rfl⟩ := List.mem_map.mp hp
      rw [hchannel.plugin?_owner hf] at hid
      cases hid
    apply h.onDesk_ hm
    intro d hd
    exact channel.resolves_connectSends (d := st.desk m) (hs.wiring m) h hports hd

theorem Resolving.change {c : Change Nat} (hc : c.removes) :
    (st.work m (.change c)).2.Resolving m := by
  apply h.onDesk hm (f := fun d => d.perform (c.map st.wiring))
  intro answer d hd
  obtain rfl := Desk.perform_eq_ok hd
  exact fun p hp => h p ((hs.wiring m).endpoints_apply (Change.removes_map st.wiring hc) hp)

theorem Resolving.work (hmade : st.ChannelsMade) {op : WiringOperation}
    (hop : op.keepsResolving st) : (st.work m op).2.Resolving m := by
  cases op with
  | change c => exact h.change hs hm hop
  | publish =>
    apply h.onDesk hm (f := Desk.publish)
    intro answer d hd
    obtain rfl := Desk.publish_eq_ok hd
    exact h
  | recalc soft =>
    apply h.onDesk_ hm (f := fun d => d.recalc soft)
    intro d hd
    obtain ⟨-, -, recalcs, rfl⟩ := Desk.recalc_eq_ok hd
    exact h
  | act a => exact h.act hs hm hmade a hop
  | connectToTap ref prefader fader => cases hop
  | disconnectChannel c =>
    cases hc : st.channel? c with
    | none =>
      simp only [Studio.work, hc]
      exact h
    | some channel =>
      rw [work_disconnectChannel hc]
      exact h.change hs hm rfl

omit h hm in
/-- What is done beside the wirings and the registry leaves both as they are. -/
theorem registry_perform {op : Operation} (hop : ∀ r, op ≠ .registry r)
    (hfresh : ∀ id label, op ≠ .registerFresh id label) :
    (st.perform op).2.registry = st.registry := by
  cases op with
  | work m op => exact st.registry_work hs m op
  | registry op => exact absurd rfl (hop op)
  | registerFresh id label => exact absurd rfl (hfresh id label)
  | addPort recipe =>
    unfold perform
    dsimp only
    cases recipe.make <;> rfl
  | editPort n edit =>
    show ((st.ports[n]?.map fun p => st.setPort n (p.edit st.ports edit)).getD st).registry = _
    cases st.ports[n]? <;> rfl
  | editSend ref edit =>
    show (((st.send? ref).map fun s => st.setSend ref (st.editedSend s edit)).getD st).registry = _
    cases st.send? ref with
    | none => rfl
    | some s => exact registry_setSend ..
  | editTap c prefader edit =>
    show (((st.channel? c).map fun channel =>
      st.setChannel c (channel.editTap prefader edit)).getD st).registry = _
    cases st.channel? c <;> rfl
  | prepareChannel c =>
    show (((st.channel? c).map fun channel => st.setChannel c channel.prepare).getD st).registry = _
    cases st.channel? c <;> rfl
  | processChannel c w =>
    show (((st.channel? c).map fun channel => st.processChannel c channel w).getD st).registry = _
    cases st.channel? c <;> rfl
  | _ => rfl

omit hm in
theorem Resolving.aside {op : Operation} (happ : op.applies st) (hwork : ∀ k w, op ≠ .work k w)
    (hop : ∀ r, op ≠ .registry r) (hfresh : ∀ id label, op ≠ .registerFresh id label) :
    (st.perform op).2.Resolving m := by
  have hwiring : (st.perform op).2.wiring m = st.wiring m := by
    unfold wiring
    rw [(aside_perform happ hwork).wirings]
  unfold Resolving
  rw [hwiring, registry_perform hs hop hfresh]
  exact h

omit hm in
theorem Resolving.single (hmade : st.ChannelsMade) {op : Operation}
    (hop : (UpkeepStep.single op).allowed st m) : (st.perform op).2.Resolving m := by
  rw [UpkeepStep.allowed, Bool.and_eq_true] at hop
  obtain ⟨happ, hallowed⟩ := hop
  cases op with
  | work k op =>
    by_cases hk : k = m
    · subst hk
      rw [Operation.keepsResolving, decide_eq_false (not_not_intro rfl), Bool.false_or] at hallowed
      exact h.work hs (of_decide_eq_true happ) hmade hallowed
    · have hwiring : (st.perform (.work k op)).2.wiring m = st.wiring m :=
        wiring_work_of_ne hs hk op
      have hregistry : (st.perform (.work k op)).2.registry = st.registry :=
        registry_work st hs k op
      unfold Resolving
      rw [hwiring, hregistry]
      exact h
  | registry op => exact fun p hp => Registry.flaw?_perform (h p hp) hallowed
  | registerFresh id label =>
    exact fun p hp => Registry.flaw?_addPorts (h p hp) [⟨id, label, st.board.fresh.1⟩]
  | _ =>
    exact h.aside hs happ (by rintro _ _ ⟨⟩) (by rintro _ ⟨⟩) (by rintro _ _ ⟨⟩)

/-! ### Taking something away -/

/-- Taking away what no wire needs after a removal of wires, if that succeeds. -/
theorem Resolving.andThen {c : Change Nat} (hc : c.removes) {op : RegistryOperation}
    (hop : ∀ p ∈ ((st.wiring m).apply (c.map st.wiring)).2.endpoints,
      st.registry.flaw? p = none → (st.registry.perform op).flaw? p = none) :
    (st.andThen (.work m (.change c)) (.registry op)).Resolving m := by
  cases hd : (st.desk m).perform (c.map st.wiring) with
  | error e =>
    -- The removal was refused, and so nothing is taken away.
    have hwork : st.perform (.work m (.change c)) = (false, st) := by
      simp only [Studio.perform, Studio.work, Studio.onDesk, hd]
      rfl
    rw [Studio.andThen, hwork]
    exact h
  | ok result =>
    obtain ⟨answer, d⟩ := result
    have hwork : st.perform (.work m (.change c)) = (true, st.withDesk m d) := by
      simp only [Studio.perform, Studio.work, Studio.onDesk, hd]
      rfl
    obtain rfl := Desk.perform_eq_ok hd
    rw [Studio.andThen, hwork]
    show ((st.withDesk m _).wiring m).Resolves (st.registry.perform op)
    rw [wiring_withDesk hm]
    intro p hp
    exact hop p hp (h p ((hs.wiring m).endpoints_apply (Change.removes_map st.wiring hc) hp))

omit hm in
theorem Resolving.keepUp (hmade : st.ChannelsMade) {step : UpkeepStep}
    (hstep : step.allowed st m) : (st.keepUp m step).Resolving m := by
  cases step with
  | single op => exact h.single hs hmade hstep
  | tearDown c =>
    cases hc : st.channel? c with
    | none =>
      simp only [Studio.keepUp, hc]
      exact h
    | some channel =>
      have hsame : st.perform (.work m (.disconnectChannel c)) =
          st.perform (.work m (.change (.disconnectPorts channel.portIds))) :=
        work_disconnectChannel hc m
      simp only [Studio.keepUp, hc, Studio.andThen, hsame]
      apply h.andThen hs (of_decide_eq_true hstep) (c := .disconnectPorts channel.portIds) rfl
      intro p hp hok
      apply Registry.flaw?_removePorts hok
      intro hmem
      exact Wiring.not_mem_endpoints_removeWhere
        (fun w hw => List.any_eq_true.mpr ⟨p, hmem, hw⟩) hp
  | removePort port =>
    apply h.andThen hs (of_decide_eq_true hstep) (c := .disconnectPort port.id) rfl
    intro p hp hok
    apply Registry.flaw?_removePorts hok
    intro hmem
    obtain rfl := List.mem_singleton.mp hmem
    exact Wiring.not_mem_endpoints_removeWhere (fun w hw => hw) hp
  | removePlugin id ports =>
    rw [UpkeepStep.allowed, Bool.and_eq_true] at hstep
    obtain ⟨hm, hports⟩ := hstep
    apply h.andThen hs (of_decide_eq_true hm) (c := .disconnectPorts ports) rfl
    intro p hp hok
    apply Registry.flaw?_unregisterPlugin hok
    intro howner
    have hold := (hs.wiring m).endpoints_apply (c := .disconnectPorts ports) rfl hp
    have hlisted : p ∈ ports := by
      have hp := List.all_eq_true.mp hports p hold
      rw [howner, decide_eq_false (not_not_intro rfl), Bool.false_or] at hp
      exact of_decide_eq_true hp
    exact Wiring.not_mem_endpoints_removeWhere
      (fun w hw => List.any_eq_true.mpr ⟨p, hlisted, hw⟩) hp

end

/-! ### Runs -/

theorem Reached.andThen {wirings : Nat} {st : Studio} (h : Reached wirings st) {op next : Operation}
    (happ : op.applies st) (hnext : ∀ st', next.applies st' = true) :
    Reached wirings (st.andThen op next) := by
  have hfirst := h.step op happ
  unfold Studio.andThen
  split
  · exact hfirst.step next (hnext _)
  · exact hfirst

theorem Reached.keepUp {wirings : Nat} {st : Studio} (h : Reached wirings st) {m : Nat}
    {step : UpkeepStep} (hstep : step.allowed st m) : Reached wirings (st.keepUp m step) := by
  cases step with
  | single op =>
    rw [UpkeepStep.allowed, Bool.and_eq_true] at hstep
    exact h.step op hstep.1
  | tearDown c =>
    cases hc : st.channel? c with
    | none =>
      simp only [Studio.keepUp, hc]
      exact h
    | some channel =>
      simp only [Studio.keepUp, hc]
      exact h.andThen hstep fun _ => rfl
  | removePort port => exact h.andThen hstep fun _ => rfl
  | removePlugin id ports =>
    rw [UpkeepStep.allowed, Bool.and_eq_true] at hstep
    exact h.andThen hstep.1 fun _ => rfl

theorem KeptUp.invariant {wirings m : Nat} {st st' : Studio} (h : KeptUp m st st')
    (hreached : Reached wirings st) (hok : st.Resolving m) :
    Reached wirings st' ∧ st'.Resolving m := by
  induction h with
  | start => exact ⟨hreached, hok⟩
  | step step _ hstep ih =>
    obtain ⟨hr, hres⟩ := ih
    exact ⟨hr.keepUp hstep, hres.keepUp hr.sound hr.channelsMade hstep⟩

/-- From any state in which the check of a wiring succeeds, it succeeds in all states that the
upkeep leads to: both ends of every wire are registered, and so are the plugins that own them. On
the control thread every recalculation succeeds then, and so does what sends do with one: every
disconnection, and every connection to a target that the checks admit. -/
theorem KeptUp.verifies {wirings m : Nat} {st st' : Studio} (hreached : Reached wirings st)
    (hok : (st.wiring m).verify st.registry = .ok ()) (h : KeptUp m st st') :
    (st'.wiring m).verify st'.registry = .ok () ∧
      (∀ w ∈ (st'.wiring m).wires, ∀ p ∈ [w.src, w.dest],
        (st'.registry.ports.get? p).isSome = true ∧
          ∀ id, p.owner.plugin? = some id → (st'.registry.plugin? id).isSome = true) ∧
      (st'.mark.rendering = false →
        (∀ soft, ∃ d, (st'.desk m).recalc soft = .ok d) ∧
        (∀ (s : Send) (recalc : Bool), (s.disconnect recalc (st'.desk m)).result = .ok ()) ∧
        ∀ (s : Send) (target : Bundle) (options : ConnectOptions),
          s.checkTarget target options.accepts st'.registry = .ok () →
          (s.connect target options (st'.desk m)).result = .ok ()) := by
  obtain ⟨hr, hres⟩ := h.invariant hreached ((Wiring.verify_eq_ok_iff _ _).mp hok)
  refine ⟨(Wiring.verify_eq_ok_iff _ _).mpr hres, ?_, ?_⟩
  · intro w hw p hp
    exact Registry.flaw?_eq_none_iff.mp (hres p (List.mem_flatMap_of_mem hw hp))
  intro hc
  have hdesk : (st'.desk m).rendering = false := hc
  refine ⟨?_, ?_, ?_⟩
  · intro soft
    have hnone : (st'.desk m).wiring.endpoints.findSome? (st'.desk m).registry.flaw? = none :=
      List.findSome?_eq_none_iff.mpr hres
    rw [Desk.recalc_of_control hdesk, hnone]
    exact ⟨_, rfl⟩
  · intro s recalc
    have hcleared := s.resolves_cleared (d := st'.desk m) hres
    rw [s.disconnect_of_control hdesk]
    split
    · rfl
    · exact Send.finish_ok (d := { st'.desk m with wiring := s.cleared _ }) hdesk hcleared _ _
  · intro s target options ht
    have hafter := s.resolves_connect (d := st'.desk m) (hr.sound.wiring m) hres target options
    rw [Send.connect_of_control hdesk ht] at hafter ⊢
    rw [Send.finish_wiring] at hafter
    exact Send.finish_ok (d := { st'.desk m with wiring := s.rewired _ target }) hdesk hafter _ _

/-- A channel with one send is registered and tapped and leads to a plugin. Then the plugin is
removed, the send is led to a port that stands on its own, and that port is removed. -/
theorem KeptUp.verifies_of_removals :
    let gate : PortId := ⟨.plugin 5, .event, .input, 0, .none, none⟩
    let sink : PortId := ⟨.trackInput 2, .event, .input, 0, .none, none⟩
    let settings : Settings := { sendSlots := 1 }
    let ports := ((Channel.create 1 .event settings).run {}).1.faces
    let steps : List UpkeepStep := [
      .single (.addChannel 1 .event settings), .single (.registry (.registerPorts ports)),
      .single (.registerFresh gate "in"), .single (.registry (.registerPlugin 5 "gate" none)),
      .single (.registerFresh sink "in"), .single (.work 0 (.act (.connectSends 0))),
      .single (.work 0 (.act (.connect (.inChannel 0 0) (.midi gate) { recalc := true }))),
      .removePlugin 5 [gate],
      .single (.work 0 (.act (.connect (.inChannel 0 0) (.midi sink) {}))),
      .removePort ⟨sink, "in", ⟨7⟩⟩]
    let after := steps.foldl (fun st step => st.keepUp 0 step) (Studio.empty 1)
    (after.wiring 0).wires.length = 1 ∧ after.registry.plugin? 5 = none ∧
      (after.wiring 0).verify after.registry = .ok () ∧
      (∀ w ∈ (after.wiring 0).wires, ∀ p ∈ [w.src, w.dest],
        (after.registry.ports.get? p).isSome = true) ∧
      ∃ d, (after.desk 0).recalc false = .ok d := by
  intro gate sink settings ports steps after
  have hstart : Reached 1 (.empty 1) := .start
  have hkept : KeptUp 0 (.empty 1) after := KeptUp.start.foldl (by decide +kernel)
  have hleft : (after.wiring 0).wires.length = 1 ∧ after.registry.plugin? 5 = none := by
    decide +kernel
  have hcontrol : after.mark.rendering = false := by decide +kernel
  obtain ⟨hverified, hresolved, hpublishes⟩ := hkept.verifies hstart rfl
  exact ⟨hleft.1, hleft.2, hverified, fun w hw p hp => (hresolved w hw p hp).1,
    (hpublishes hcontrol).1 false⟩

end Studio

end MixerRouting
