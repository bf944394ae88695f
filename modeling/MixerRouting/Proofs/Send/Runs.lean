import MixerRouting.Proofs.Send.Fresh
import MixerRouting.Proofs.Send.Steady
import MixerRouting.Studio.Basic

/-!
# Runs of sends

Any number of sends share one wiring and may lead to each other's ports. In a
run each of them is connected, disconnected and scaled at will, and channels
tap their sends in between. The sends stay apart because each works on the
wires that leave its own outputs and no two have an output in common; this is
what the invariant carries from step to step.
-/
namespace MixerRouting

/-- What a run does to the sends of a studio, on one of its wirings. -/
inductive SendAction where
  | connect (ref : SendRef) (target : Bundle) (options : ConnectOptions)
  | disconnect (ref : SendRef) (recalc : Bool)
  | setAmount (ref : SendRef) (amount : Float32)
  /-- Taps all sends of a channel. -/
  | connectSends (channel : Nat)

theorem Send.OwnsOutputs.of_place {s t : Send} (h : s.OwnsOutputs) (hp : t.place = s.place) :
    t.OwnsOutputs := by
  obtain ⟨ho, hout⟩ := Prod.mk.inj hp
  constructor
  · rw [ho, hout]
    exact h.owner
  · rw [hout]
    exact h.distinct

namespace Studio

/-- One action; nothing happens if there is no such send or channel. -/
def act (m : Nat) (st : Studio) : SendAction → Except (Fault SendError) Unit × Studio
  | .connect ref target options =>
    match st.send? ref with
    | some s => st.onSend ref s m fun s d => s.connect target options d
    | none => (.ok (), st)
  | .disconnect ref recalc =>
    match st.send? ref with
    | some s => st.onSend ref s m fun s d => s.disconnect recalc d
    | none => (.ok (), st)
  | .setAmount ref amount =>
    match st.send? ref with
    | some s => (.ok (), st.setSend ref (s.setAmount amount))
    | none => (.ok (), st)
  | .connectSends c =>
    match st.channel? c with
    | some channel => st.onDesk_ m channel.connectSends
    | none => (.ok (), st)

/-- Whether the send or the channel of an action is there. -/
def present (st : Studio) : SendAction → Bool
  | .connect ref _ _ | .disconnect ref _ | .setAmount ref _ => (st.send? ref).isSome
  | .connectSends c => (st.channel? c).isSome

/-- What an action does where its send or channel is, and that it does nothing where there is
none. -/
inductive Acts (st : Studio) (m : Nat) :
    SendAction → Except (Fault SendError) Unit × Studio → Prop
  | absent (a : SendAction) (missing : st.present a = false) : Acts st m a (.ok (), st)
  | connect {ref : SendRef} {s : Send} (found : st.send? ref = some s) (target : Bundle)
    (options : ConnectOptions) : Acts st m (.connect ref target options)
      (st.onSend ref s m fun s d => s.connect target options d)
  | disconnect {ref : SendRef} {s : Send} (found : st.send? ref = some s) (recalc : Bool) :
    Acts st m (.disconnect ref recalc) (st.onSend ref s m fun s d => s.disconnect recalc d)
  | setAmount {ref : SendRef} {s : Send} (found : st.send? ref = some s) (amount : Float32) :
    Acts st m (.setAmount ref amount) (.ok (), st.setSend ref (s.setAmount amount))
  | connectSends {c : Nat} {channel : Channel} (found : st.channel? c = some channel) :
    Acts st m (.connectSends c) (st.onDesk_ m channel.connectSends)

theorem acts (m : Nat) (st : Studio) (a : SendAction) : st.Acts m a (st.act m a) := by
  cases a with
  | connect ref target options =>
    cases hs : st.send? ref with
    | none =>
      simp only [act, hs]
      exact .absent _ (by rw [present, hs]; rfl)
    | some s =>
      simp only [act, hs]
      exact .connect hs target options
  | disconnect ref recalc =>
    cases hs : st.send? ref with
    | none =>
      simp only [act, hs]
      exact .absent _ (by rw [present, hs]; rfl)
    | some s =>
      simp only [act, hs]
      exact .disconnect hs recalc
  | setAmount ref amount =>
    cases hs : st.send? ref with
    | none =>
      simp only [act, hs]
      exact .absent _ (by rw [present, hs]; rfl)
    | some s =>
      simp only [act, hs]
      exact .setAmount hs amount
  | connectSends c =>
    cases hc : st.channel? c with
    | none =>
      simp only [act, hc]
      exact .absent _ (by rw [present, hc]; rfl)
    | some channel =>
      simp only [act, hc]
      exact .connectSends hc

def runSends (m : Nat) (st : Studio) (actions : List SendAction) : Studio :=
  actions.foldl (fun st a => (st.act m a).2) st

/-- A studio in control hands with freshly made channels and sends, no two with the same track and
slot, and with a wiring from changes in which no wire leaves an output of a send. -/
structure FreshSends (st : Studio) (m : Nat) : Prop where
  control : st.mark.rendering = false
  present : m < st.wirings.length
  reachable : (st.wiring m).Reachable
  channels : ∀ c ∈ st.channels, c.Fresh
  sends : ∀ s ∈ st.sends, s.Fresh
  apart : ∀ ref ref' s s', st.send? ref = some s → st.send? ref' = some s' →
    s.owner = s'.owner → ref = ref'
  free : ∀ ref s, st.send? ref = some s → ∀ p ∈ s.outputs.ports, (st.wiring m).outgoing p = []

/-- What a run from `start` preserves: the same sends are there, each is settled, and the owners
keep their outputs apart. -/
structure Steady (start st : Studio) (m : Nat) : Prop where
  control : st.mark.rendering = false
  present : m < st.wirings.length
  reachable : (st.wiring m).Reachable
  same : ∀ ref, (st.send? ref).map Send.place = (start.send? ref).map Send.place
  taps : ∀ c ∈ st.channels, c.TapsApart
  owns : ∀ ref s, st.send? ref = some s → s.OwnsOutputs
  apart : ∀ ref ref' s s', st.send? ref = some s → st.send? ref' = some s' →
    s.owner = s'.owner → ref = ref'
  settled : ∀ ref s, st.send? ref = some s → s.Settled (st.wiring m)

/-! ### Putting a send and a desk back -/

theorem send?_setSend (st : Studio) (ref r : SendRef) (t : Send) :
    (st.setSend ref t).send? r = if r = ref then (st.send? r).map fun _ => t else st.send? r := by
  cases ref with
  | inChannel c slot =>
    cases r with
    | loose n => rfl
    | inChannel c' slot' =>
      simp only [setSend, send?, channel?, List.getElem?_modify, SendRef.inChannel.injEq]
      cases st.channels[c']? with
      | none => simp
      | some channel =>
        by_cases hc : c' = c
        · subst hc
          by_cases hs : slot' = slot
          · subst hs
            simp [Channel.setSend, Channel.send?, List.getElem?_set', Function.const_def]
          · simp [Channel.setSend, Channel.send?, List.getElem?_set_ne (Ne.symm hs), hs]
        · simp [hc, Ne.symm hc]
  | loose n =>
    cases r with
    | inChannel c' slot' => rfl
    | loose n' =>
      simp only [setSend, send?, List.getElem?_set', SendRef.loose.injEq]
      by_cases hn : n' = n
      · subst hn
        simp [Function.const_def]
      · simp [hn, Ne.symm hn]

/-- A send that is found after one was put back is that one, or stands elsewhere. -/
theorem eq_or_ne_of_send?_setSend {st : Studio} {ref r : SendRef} {s t : Send}
    (h : (st.setSend ref s).send? r = some t) :
    (r = ref ∧ t = s) ∨ (st.send? r = some t ∧ r ≠ ref) := by
  rw [send?_setSend] at h
  split at h
  · next hr =>
    obtain ⟨_, -, ht⟩ := Option.map_eq_some_iff.mp h
    exact .inl ⟨hr, ht.symm⟩
  · next hr => exact .inr ⟨h, hr⟩

theorem place_setSend {st : Studio} {ref : SendRef} {s t : Send} (hs : st.send? ref = some s)
    (hp : t.place = s.place) (r : SendRef) :
    ((st.setSend ref t).send? r).map Send.place = (st.send? r).map Send.place := by
  rw [send?_setSend]
  split
  · next hr =>
    rw [hr, hs]
    exact congrArg some hp
  · rfl

theorem mem_channels_setSend {st : Studio} {ref : SendRef} {t : Send} {c : Channel}
    (h : c ∈ (st.setSend ref t).channels) :
    ∃ c' ∈ st.channels, c.prefader = c'.prefader ∧ c.fader = c'.fader := by
  cases ref with
  | loose n => exact ⟨c, h, rfl, rfl⟩
  | inChannel i slot =>
    obtain ⟨j, hj⟩ := List.mem_iff_getElem?.mp h
    simp only [setSend, List.getElem?_modify] at hj
    obtain ⟨c', hc', he⟩ := Option.map_eq_some_iff.mp hj
    refine ⟨c', List.mem_of_getElem? hc', ?_⟩
    rw [← he]
    split <;> exact ⟨rfl, rfl⟩

theorem wiring_withDesk {st : Studio} {m : Nat} (hm : m < st.wirings.length) (d : Desk) :
    (st.withDesk m d).wiring m = d.wiring := by
  simp [wiring, withDesk, hm]

theorem withDesk_desk {st : Studio} {m : Nat} (hm : m < st.wirings.length) :
    st.withDesk m (st.desk m) = st := by
  simp [withDesk, desk, wiring, hm]

/-- Changing only a send is an operation on it that leaves the desk alone. -/
theorem onSend_send {st : Studio} {m : Nat} (hm : m < st.wirings.length) (ref : SendRef) (s : Send)
    (f : Send → Send) :
    (st.onSend ref s m fun s d => ⟨.ok (), f s, d⟩).2 = st.setSend ref (f s) := by
  have hd : (st.setSend ref (f s)).desk m = st.desk m := by cases ref <;> rfl
  have hm' : m < (st.setSend ref (f s)).wirings.length := by cases ref <;> exact hm
  rw [onSend, ← hd]
  exact withDesk_desk hm'

theorem wirings_setSend (st : Studio) (ref : SendRef) (t : Send) :
    (st.setSend ref t).wirings = st.wirings := by
  cases ref <;> rfl

/-! ### The invariant -/

section
variable {start st : Studio} {m : Nat}

theorem FreshSends.fresh (h : st.FreshSends m) {ref : SendRef} {s : Send}
    (hs : st.send? ref = some s) : s.Fresh := by
  cases ref with
  | inChannel c slot =>
    obtain ⟨channel, hc, hs⟩ := Option.bind_eq_some_iff.mp hs
    exact (h.channels channel (List.mem_of_getElem? hc)).sends (List.mem_of_getElem? hs)
  | loose n => exact h.sends s (List.mem_of_getElem? hs)

theorem FreshSends.steady (h : st.FreshSends m) : Steady st st m where
  control := h.control
  present := h.present
  reachable := h.reachable
  same _ := rfl
  taps c hc := (h.channels c hc).tapsApart
  owns _ _ hs := (h.fresh hs).ownsOutputs
  apart := h.apart
  settled ref s hs := .inl ⟨(h.fresh hs).isOn, (h.fresh hs).sidechain, h.free ref s hs⟩

/-- A wiring that is changed at no output of a send. -/
theorem Steady.withDesk (h : Steady start st m) {d : Desk} (hr : d.wiring.Reachable)
    (hf : ∀ ref s, st.send? ref = some s → ∀ p ∈ s.outputs.ports,
      d.wiring.outgoing p = (st.wiring m).outgoing p) : Steady start (st.withDesk m d) m := by
  have hw : (st.withDesk m d).wiring m = d.wiring := wiring_withDesk h.present d
  refine ⟨h.control, ?_, ?_, h.same, h.taps, h.owns, h.apart, ?_⟩
  · rw [Studio.withDesk, List.length_set]
    exact h.present
  · rw [hw]
    exact hr
  · intro ref s hs
    rw [hw]
    exact (h.settled ref s hs).of_outgoing (hf ref s hs)

/-- What an operation on one send keeps is enough for all others. -/
theorem Steady.onSend (h : Steady start st m) {ref : SendRef} {s : Send}
    (hs : st.send? ref = some s) {f : Send → Desk → SendOutcome}
    (hk : s.Keeps (st.desk m) (f s (st.desk m))) :
    Steady start (st.onSend ref s m f).2 m := by
  unfold Studio.onSend
  generalize f s (st.desk m) = o at hk
  have hm : m < (st.setSend ref o.send).wirings.length := by
    rw [wirings_setSend]
    exact h.present
  have hw : ((st.setSend ref o.send).withDesk m o.desk).wiring m = o.desk.wiring :=
    wiring_withDesk hm o.desk
  have hplace := place_setSend hs hk.place
  have hold : ∀ r t, (st.setSend ref o.send).send? r = some t →
      ∃ t₀, st.send? r = some t₀ ∧ t.place = t₀.place := by
    intro r t ht
    have hr := hplace r
    rw [ht, Option.map_some] at hr
    obtain ⟨t₀, ht₀, he⟩ := Option.map_eq_some_iff.mp hr.symm
    exact ⟨t₀, ht₀, he.symm⟩
  refine ⟨?_, ?_, ?_, fun r => (hplace r).trans (h.same r), ?_, ?_, ?_, ?_⟩
  · cases ref <;> exact h.control
  · show m < ((st.setSend ref o.send).wirings.set m o.desk.wiring).length
    rw [List.length_set]
    exact hm
  · rw [hw]
    exact hk.reachable
  · intro c hc
    obtain ⟨c', hc', hpre, hfader⟩ := mem_channels_setSend hc
    unfold Channel.TapsApart
    rw [hpre, hfader]
    exact h.taps c' hc'
  · intro r t ht
    obtain ⟨t₀, ht₀, hp⟩ := hold r t ht
    exact (h.owns r t₀ ht₀).of_place hp
  · intro r r' t t' ht ht' he
    obtain ⟨t₀, ht₀, hp⟩ := hold r t ht
    obtain ⟨t₁, ht₁, hp'⟩ := hold r' t' ht'
    have ho : t.owner = t₀.owner := congrArg Prod.fst hp
    have ho' : t'.owner = t₁.owner := congrArg Prod.fst hp'
    exact h.apart r r' t₀ t₁ ht₀ ht₁ (ho.symm.trans (he.trans ho'))
  · intro r t ht
    rw [hw]
    rcases eq_or_ne_of_send?_setSend ht with ⟨rfl, rfl⟩ | ⟨ht, hr⟩
    · exact hk.settled
    · refine (h.settled r t ht).of_outgoing ?_
      intro p hp
      apply hk.frame
      -- A common output would make both sends its owner.
      intro hps
      have ho : t.owner = s.owner :=
        ((h.owns r t ht).owner p hp).symm.trans ((h.owns ref s hs).owner p hps)
      exact hr (h.apart r ref t s ht hs ho)

theorem Steady.connectSends (h : Steady start st m) {c : Nat} {channel : Channel}
    (hch : st.channel? c = some channel) :
    Steady start (st.onDesk_ m channel.connectSends).2 m := by
  cases ht : channel.connectSends (st.desk m) with
  | error e =>
    simp only [onDesk_, onDesk, ht, Except.map]
    exact h
  | ok d =>
    obtain ⟨g, rfl, hr, hframe⟩ := channel.connectSends_eq_ok (d := st.desk m) h.reachable ht
    simp only [onDesk_, onDesk, ht, Except.map]
    refine h.withDesk (d := { st.desk m with wiring := g }) hr ?_
    intro ref s hs p hp
    apply hframe
    intro hm
    have howner := (h.owns ref s hs).owner p hp
    exact h.taps channel (List.mem_of_getElem? hch) p hm s.track s.slot howner

/-- One action, whatever it answers. -/
theorem Steady.act (h : Steady start st m) (a : SendAction) : Steady start (st.act m a).2 m := by
  have ha := st.acts m a
  generalize st.act m a = result at ha
  cases ha with
  | absent => exact h
  | @connect ref s hs target options =>
    exact h.onSend hs (Send.connect_keeps h.control h.reachable (h.settled ref s hs)
      (h.owns ref s hs).distinct target options)
  | @disconnect ref s hs recalc =>
    exact h.onSend hs (Send.disconnect_keeps h.control h.reachable (h.settled ref s hs) recalc)
  | @setAmount ref s hs amount =>
    show Steady start (st.setSend ref (s.setAmount amount)) m
    rw [← onSend_send h.present ref s fun s => s.setAmount amount]
    exact h.onSend hs ⟨rfl, h.reachable, fun _ _ => rfl, (h.settled ref s hs).setAmount amount⟩
  | connectSends hc => exact h.connectSends hc

theorem Steady.runSends (h : Steady start st m) (actions : List SendAction) :
    Steady start (st.runSends m actions) m := by
  induction actions generalizing st with
  | nil => exact h
  | cons a rest ih => exact ih (h.act a)

/-- After any actions, from freshly made sends on, every send is still there with its ports and is
in exactly one of the two states, and so its wires are as they should be. -/
theorem FreshSends.idle_xor_engaged (h : st.FreshSends m) (actions : List SendAction)
    {ref : SendRef} {fresh : Send} (hs : st.send? ref = some fresh) :
    let st' := st.runSends m actions
    ∃ s, st'.send? ref = some s ∧ s.owner = fresh.owner ∧ s.outputs = fresh.outputs ∧
      Xor (s.Idle (st'.wiring m)) (s.Engaged (st'.wiring m)) ∧
      s.isSound (st'.wiring m) = true := by
  intro st'
  have hst : Steady st st' m := h.steady.runSends actions
  have hplace := hst.same ref
  rw [hs, Option.map_some] at hplace
  obtain ⟨s, hs', he⟩ := Option.map_eq_some_iff.mp hplace
  obtain ⟨ho, hp⟩ := Prod.mk.inj he
  have hsettled := hst.settled ref s hs'
  exact ⟨s, hs', ho, hp, hsettled.xor, hsettled.isSound hst.reachable⟩

end

/-- Two sends lead to each other's outputs, a loose one to a target with the wrong signal; then one
leads to itself and the other is taken away, in a graph that does not resolve. -/
theorem FreshSends.idle_xor_engaged_of_ring :
    let settings : Settings := { sendSlots := 2 }
    let made := (((Studio.empty 1).addChannel 1 .audio settings).2.addSend 2 0 .event settings).2
    let st := made.registerAll (made.channels.flatMap Channel.faces)
    let a : SendRef := .inChannel 0 0
    let b : SendRef := .inChannel 0 1
    let outputs (slot : UInt8) : Bundle := .stereo
      ⟨.send 1 slot, .audio, .output, 0, .stereoLeft, none⟩
      ⟨.send 1 slot, .audio, .output, 1, .stereoRight, none⟩
    let script : List SendAction :=
      [.connectSends 0, .connect a (outputs 1) {}, .connect b (outputs 0) { sidechain := true },
        .setAmount b 0, .connect (.loose 0) (outputs 0) {},
        .connect a (outputs 0) { recalc := true }, .disconnect b true]
    let st' := st.runSends 0 script
    st.FreshSends 0 ∧ ∃ s, st'.send? a = some s ∧ s.isOn = true ∧ s.outputs = outputs 0 ∧
      Xor (s.Idle (st'.wiring 0)) (s.Engaged (st'.wiring 0)) ∧ s.isSound (st'.wiring 0) = true := by
  intro settings made st a b outputs script st'
  let home (o : Owner) : SendRef :=
    if o = .send 1 0 then a else if o = .send 1 1 then b else .loose 0
  have hhome : ∀ ref s, st.send? ref = some s → home s.owner = ref := by
    rintro (⟨_ | c, _ | _ | slot⟩ | ⟨_ | n⟩) s hs <;> cases hs <;> rfl
  have hst : st.FreshSends 0 := by
    refine ⟨rfl, Nat.zero_lt_one, .empty, ?_, ?_, ?_, fun _ _ _ _ _ => rfl⟩
    · intro c hc
      replace hc : c ∈ [((Channel.create 1 .audio settings).run {}).1] := hc
      exact ⟨_, _, _, _, List.mem_singleton.mp hc⟩
    · intro s hs
      replace hs : s ∈ [((Send.create 2 0 .event settings).run _).1] := hs
      exact ⟨_, _, _, _, _, List.mem_singleton.mp hs⟩
    · intro ref ref' s s' hs hs' he
      rw [← hhome ref s hs, he, hhome ref' s' hs']
  have hon : (st'.send? a).map Send.isOn = some true := by decide +kernel
  obtain ⟨fresh, hfresh⟩ : ∃ fresh, st.send? a = some fresh := ⟨_, rfl⟩
  obtain ⟨s, hs, -, ho, hx, hsound⟩ := hst.idle_xor_engaged script hfresh
  rw [hs, Option.map_some, Option.some.injEq] at hon
  have hfo : (st.send? a).map Send.outputs = some (outputs 0) := by decide +kernel
  rw [hfresh, Option.map_some, Option.some.injEq] at hfo
  exact ⟨hst, s, hs, hon, ho.trans hfo, hx, hsound⟩

end Studio

end MixerRouting
