import Mathlib.Data.List.Flatten
import MixerRouting.Proofs.Channel.Identities
import MixerRouting.Proofs.Channel.Rendering

/-!
# Wires from the taps and data from the taps

The tap of a send is chosen twice: when its inputs are wired, by identities, and
when the channel is processed, by contents. Both go through the ports of the
tap and the inputs side by side, so what an input takes over in a window is what
the port holds from which the wire to that input comes. The wires are made once
for all; whatever wires there were, each pair of ports is joined afterwards, and
to wire the channel again changes nothing.
-/
namespace MixerRouting

/-! ### What single ports hold -/

/-- What a port for a signal holds. -/
inductive Load where
  | samples (x : Samples)
  | events (q : EventQueue)
  deriving DecidableEq

/-- The events of a queue that lie in a window. -/
def EventQueue.inWindow (w : Window) (q : EventQueue) : List Event :=
  q.events.filter fun e => w.offset ≤ e.time.toNat ∧ e.time.toNat < w.offset + w.frames

/-- What a port holds after it took a window over from another one. Its samples in the window are
those of the other port, as far as that reaches, and all others are its own. The events of the other
port in the window come after its own, in order and as many as there is room for; the rest is
counted. -/
def Load.Receives (w : Window) : (own source after : Load) → Prop
  | .samples own, .samples source, .samples after => ∀ i : Nat, after[i]? = own[i]?.map fun x =>
      if w.offset ≤ i ∧ i < w.offset + w.frames then source[i]?.getD x else x
  | .events own, .events source, .events after =>
    let room := own.capacity - own.events.length
    after.events = own.events ++ (source.inWindow w).take room ∧
      after.capacity = own.capacity ∧
      after.dropped = own.dropped + ((source.inWindow w).length - room)
  | _, _, _ => False

/-- What a port holds of another one in a window, and nothing else: silence outside of the window,
no event that was there before, and none left out. -/
def Load.CarriesOnly (w : Window) : (own source after : Load) → Prop
  | .samples _, .samples source, .samples after => ∀ i : Nat, after[i]? = source[i]?.map fun x =>
      if w.offset ≤ i ∧ i < w.offset + w.frames then x else 0
  | .events own, .events source, .events after =>
    after = { own with events := source.inWindow w }
  | _, _, _ => False

theorem EventQueue.within_eq_inWindow (w : Window) (q : EventQueue) :
    q.within w = q.inWindow w := by
  refine List.filter_congr fun e _ => Bool.eq_iff_iff.mpr ?_
  rw [Window.covers_iff, decide_eq_true_iff]
  exact Iff.rfl

theorem Load.receives_copyWindow (w : Window) (own source : Samples) :
    (samples own).Receives w (.samples source) (.samples (Samples.copyWindow w own source)) := by
  intro i
  rw [Samples.copyWindow, Samples.zipWindow, Array.getElem?_mapIdx]
  refine congrArg (Option.map · own[i]?) (funext fun x => if_congr (w.covers_iff i) ?_ rfl)
  cases source[i]? <;> rfl

theorem Load.receives_appendWindow (w : Window) (own source : EventQueue) :
    (events own).Receives w (.events source)
      (.events (EventQueue.appendWindow w own source).2) := by
  simp only [EventQueue.appendWindow, EventQueue.pushAll_eq, EventQueue.within_eq_inWindow]
  exact ⟨rfl, rfl, rfl⟩

theorem Load.carriesOnly_gate (w : Window) (own source : Samples) :
    (samples own).CarriesOnly w (.samples source)
      (.samples (source.gate (Window.someCovers [w]) id)) := by
  intro i
  rw [Samples.getElem?_gate, Window.someCovers_singleton]
  exact congrArg (Option.map · source[i]?) (funext fun x => if_congr (w.covers_iff i) rfl rfl)

/-- The ports with what they hold, in the order of their channels. -/
def LiveBundle.loads : LiveBundle → List (PortId × Load)
  | .stereo pair =>
    [(pair.left.id, .samples pair.left.samples), (pair.right.id, .samples pair.right.samples)]
  | .midi port => [(port.id, .events port.queue)]

namespace LiveBundle

theorem map_fst_loads (b : LiveBundle) : b.loads.map Prod.fst = b.ids.ports := by
  cases b <;> rfl

theorem getElem?_ports {b : LiveBundle} {k : Nat} {p : PortId} {x : Load}
    (h : b.loads[k]? = some (p, x)) : b.ids.ports[k]? = some p := by
  rw [← map_fst_loads, List.getElem?_map, h]
  rfl

theorem length_loads {b b' : LiveBundle} (h : b.signal = b'.signal) :
    b.loads.length = b'.loads.length := by
  rw [← List.length_map, ← b'.loads.length_map Prod.fst, map_fst_loads, map_fst_loads]
  exact Bundle.length_ports (b.signal_ids.trans (h.trans b'.signal_ids.symm))

theorem Sized.signal_eq {signal : Signal} {settings : Settings} {b : LiveBundle}
    (h : b.Sized signal settings) : b.signal = signal := by
  cases b with
  | stereo pair => exact h.1.symm
  | midi port => exact h.1.symm

end LiveBundle

/-- Work on a pair side by side with another one is work on what the ports at one place hold. -/
theorem StereoPair.loads_zip (dst : StereoPair) {src : StereoPair}
    (f : Samples → Samples → Samples) {k : Nat} {p q : PortId} {x y : Load}
    (hx : (LiveBundle.stereo src).loads[k]? = some (q, x))
    (hy : (LiveBundle.stereo dst).loads[k]? = some (p, y)) :
    ∃ own source, y = .samples own ∧ x = .samples source ∧
      (LiveBundle.stereo (dst.zip f src)).loads[k]? = some (p, .samples (f own source)) := by
  match k with
  | 0 =>
    cases hx
    cases hy
    exact ⟨_, _, rfl, rfl, rfl⟩
  | 1 =>
    cases hx
    cases hy
    exact ⟨_, _, rfl, rfl, rfl⟩
  | k + 2 => cases hx

theorem EventPort.loads_eq_some {port : EventPort} {k : Nat} {p : PortId} {x : Load}
    (h : (LiveBundle.midi port).loads[k]? = some (p, x)) :
    k = 0 ∧ p = port.id ∧ x = .events port.queue := by
  match k with
  | 0 =>
    cases h
    exact ⟨rfl, rfl, rfl⟩
  | k + 1 => cases h

namespace Send

theorem signal_input (s : Send) : s.lines.input.signal = s.signal := by
  unfold signal
  cases s.lines <;> rfl

/-- Each input takes the window over from the port of the tap that stands at its place. -/
theorem receives_input {s : Send} {tap : LiveBundle} (h : tap.signal = s.signal) (w : Window)
    {k : Nat} {src dest : PortId} {x y : Load} (hsrc : tap.loads[k]? = some (src, x))
    (hdest : s.lines.input.loads[k]? = some (dest, y)) :
    ∃ y', (s.receive tap w).lines.input.loads[k]? = some (dest, y') ∧ y.Receives w x y' := by
  rw [← s.signal_input] at h
  unfold receive
  cases hlines : s.lines with
  | audio input output =>
    rw [hlines] at h hdest
    cases tap with
    | stereo pair =>
      obtain ⟨own, source, rfl, rfl, hafter⟩ :=
        input.loads_zip (Samples.copyWindow w) hsrc hdest
      exact ⟨_, hafter, Load.receives_copyWindow w own source⟩
    | midi port => cases h
  | event input output =>
    rw [hlines] at h hdest
    cases tap with
    | stereo pair => cases h
    | midi port =>
      obtain ⟨rfl, rfl, rfl⟩ := EventPort.loads_eq_some hdest
      obtain ⟨-, -, rfl⟩ := EventPort.loads_eq_some hsrc
      exact ⟨_, rfl, Load.receives_appendWindow w input.queue port.queue⟩

/-- After a cycle of one window each input carries only what the port of the tap at its place
holds there. -/
theorem carriesOnly_input {s : Send} {tap : LiveBundle} (h : tap.signal = s.signal) (w : Window)
    (sent : List Window) {k : Nat} {src dest : PortId} {x y : Load}
    (hsrc : tap.loads[k]? = some (src, x))
    (hdest : s.lines.input.loads[k]? = some (dest, y)) :
    ∃ y', (s.carrying tap [w] sent).lines.input.loads[k]? = some (dest, y') ∧
      y.CarriesOnly w x y' := by
  rw [← s.signal_input] at h
  simp only [carrying]
  cases hlines : s.lines with
  | audio input output =>
    rw [hlines] at h hdest
    cases tap with
    | stereo pair =>
      obtain ⟨own, source, rfl, rfl, hafter⟩ :=
        input.loads_zip (fun _ x => x.gate (Window.someCovers [w]) id) hsrc hdest
      exact ⟨_, hafter, Load.carriesOnly_gate w own source⟩
    | midi port => cases h
  | event input output =>
    rw [hlines] at h hdest
    cases tap with
    | stereo pair => cases h
    | midi port =>
      obtain ⟨rfl, rfl, rfl⟩ := EventPort.loads_eq_some hdest
      obtain ⟨-, -, rfl⟩ := EventPort.loads_eq_some hsrc
      refine ⟨_, rfl, ?_⟩
      rw [EventQueue.throughout_singleton, EventQueue.within_eq_inWindow]
      rfl

theorem input_forward (s : Send) (w : Window) : (s.forward w).lines.input = s.lines.input := by
  unfold forward
  cases s.lines <;> rfl

theorem input_render (s : Send) (registry : Registry) (board : Board) (w : Window) :
    (s.render registry board w).lines.input = s.lines.input := by
  unfold render
  split
  · exact s.input_forward w
  · rfl

end Send

namespace Channel

theorem getElem?_process {c : Channel} {slot : Nat} {s : Send} (hs : c.sends[slot]? = some s)
    (registry : Registry) (board : Board) (w : Window) :
    (c.process registry board w).sends[slot]? =
      some ((s.receive (c.tapOf s) w).render registry board w) := by
  rw [process, List.getElem?_map, hs]
  rfl

/-! ### Wiring the inputs -/

/-- The inputs of a send, each with the port of the tap that stands at its place. -/
def tapPairsOf (c : Channel) (s : Send) : List (PortId × PortId) :=
  (c.tapOf s).ids.ports.zip s.inputs.ports

/-- The pairs of all sends in the order of their slots. -/
def tapPairs (c : Channel) : List (PortId × PortId) := c.sends.flatMap c.tapPairsOf

theorem connectToTap_of_control {c : Channel} {s : Send} (hsignal : (c.tapOf s).signal = s.signal)
    {d : Desk} (hd : d.rendering = false) :
    s.connectToTap c.prefader.ids c.fader.ids d =
      .ok { d with wiring := d.wiring.connectLocked (c.tapPairsOf s) } := by
  have htap : (if s.isPrefader then c.prefader.ids else c.fader.ids) = (c.tapOf s).ids :=
    (apply_ite LiveBundle.ids _ _ _).symm
  have hids : (c.tapOf s).ids.signal = s.signal := (c.tapOf s).signal_ids.trans hsignal
  unfold Send.connectToTap
  simp only [htap, hids, if_true]
  rw [Desk.connectLocked_of_control hd]
  rfl

theorem foldlM_connectToTap {c : Channel} {sends : List Send}
    (hsignal : ∀ s ∈ sends, (c.tapOf s).signal = s.signal) {d : Desk} (hd : d.rendering = false) :
    sends.foldlM (fun d s => s.connectToTap c.prefader.ids c.fader.ids d) d =
      .ok { d with wiring := d.wiring.connectLocked (sends.flatMap c.tapPairsOf) } := by
  induction sends generalizing d with
  | nil => rfl
  | cons s rest ih =>
    have hrest : ∀ t ∈ rest, (c.tapOf t).signal = t.signal :=
      fun t ht => hsignal t (List.mem_cons_of_mem _ ht)
    have happend : (d.wiring.connectLocked (c.tapPairsOf s)).connectLocked
        (rest.flatMap c.tapPairsOf) =
          d.wiring.connectLocked ((s :: rest).flatMap c.tapPairsOf) := by
      rw [List.flatMap_cons]
      exact List.foldl_append.symm
    rw [List.foldlM_cons, connectToTap_of_control (hsignal s List.mem_cons_self) hd, ← happend]
    exact ih hrest hd

section
variable {track : OwnerId} {signal : Signal} {settings : Settings} {c : Channel}
  (h : c.Made track signal settings)
include h

theorem Made.signal_tapOf {slot : Nat} {s : Send} (hs : c.sends[slot]? = some s) :
    (c.tapOf s).signal = s.signal := by
  rw [h.signal_send hs]
  exact (h.sized_tapOf s).signal_eq

theorem Made.connectSends_of_control {d : Desk} (hd : d.rendering = false) :
    c.connectSends d = .ok { d with wiring := d.wiring.connectLocked c.tapPairs } := by
  apply foldlM_connectToTap _ hd
  intro s hs
  obtain ⟨slot, hslot⟩ := List.mem_iff_getElem?.mp hs
  exact h.signal_tapOf hslot

/-- No input is in two pairs, since no two inputs have the same identity. -/
theorem Made.nodup_tapPairs : c.tapPairs.Nodup := by
  have hinputs : c.tapPairs.map Prod.snd = c.sends.flatMap fun s => s.inputs.ports := by
    rw [tapPairs, List.map_flatMap]
    apply List.flatMap_congr
    intro s hs
    obtain ⟨slot, hslot⟩ := List.mem_iff_getElem?.mp hs
    have hsignal : s.inputs.signal = (c.tapOf s).ids.signal := by
      rw [LiveBundle.signal_ids, h.signal_tapOf hslot]
      exact (LiveBundle.signal_ids _).trans s.signal_input
    exact List.map_snd_zip (Nat.le_of_eq (Bundle.length_ports hsignal))
  apply List.Nodup.of_map Prod.snd
  rw [hinputs]
  refine h.nodup_sends.sublist (List.Sublist.flatMap_right _ ?_)
  intro s _
  rw [s.portIds_eq]
  exact ((List.sublist_append_left _ _).cons _).cons _

/-- What wiring the sends of a channel to their taps comes to, from any wires that there are. All
pairs of ports are joined: wires that were there keep their places, the missing ones come last, and
to wire the channel once more changes nothing. Each wire leads from the port whose contents the
input receives when the channel is processed, whatever both of them hold: of that port and no other,
the samples and the events in the window. In a cycle of one window it holds nothing else. -/
theorem Made.wires_taps {d : Desk} (hd : d.rendering = false) (hg : d.wiring.Reachable) :
    ∃ d', c.connectSends d = .ok d' ∧ d' = { d with wiring := d'.wiring } ∧
      c.connectSends d' = .ok d' ∧
      d'.wiring.wires =
        (d.wiring.wires.map fun w =>
          if w.ends ∈ c.tapPairs then { w with gain := 1, locked := true, enabled := true }
          else w) ++
        (c.tapPairs.filter fun pair => pair ∉ d.wiring.wires.map Wire.ends).map
          Wiring.lockedWire ∧
      ∀ (slot : Nat) (s : Send), c.sends[slot]? = some s →
        let tap := if slot < settings.postFaderStart then c.prefader else c.fader
        tap.loads.length = s.lines.input.loads.length ∧
        ∀ (k : Nat) (src dest : PortId) (x y : Load), tap.loads[k]? = some (src, x) →
          s.lines.input.loads[k]? = some (dest, y) →
          (src, dest) ∈ c.tapPairs ∧
          (∃ w, d'.wiring.find? src dest = some w ∧
            w.gain = 1 ∧ w.locked = true ∧ w.enabled = true) ∧
          ∀ (registry : Registry) (board : Board) (window : Window),
            (∃ s' y', (c.process registry board window).sends[slot]? = some s' ∧
              s'.lines.input.loads[k]? = some (dest, y') ∧ y.Receives window x y') ∧
            ∃ s' y', (c.prepare.process registry board window).sends[slot]? = some s' ∧
              s'.lines.input.loads[k]? = some (dest, y') ∧ y.CarriesOnly window x y' := by
  have hpairs := h.nodup_tapPairs
  have hwired : ∀ g : Wiring, c.connectSends { d with wiring := g } =
      .ok { d with wiring := g.connectLocked c.tapPairs } := fun _ => h.connectSends_of_control hd
  refine ⟨_, hwired d.wiring, rfl, ?_, hg.wires_connectLocked_eq hpairs, ?_⟩
  · rw [hwired, hg.connectLocked_connectLocked hpairs]
  · intro slot s hs tap
    have htap : c.tapOf s = tap := h.tapOf_send hs
    have hsignal := h.signal_tapOf hs
    rw [← htap]
    refine ⟨LiveBundle.length_loads (hsignal.trans s.signal_input.symm), ?_⟩
    intro k src dest x y hsrc hdest
    have hpair : (src, dest) ∈ c.tapPairs := by
      refine List.mem_flatMap.mpr ⟨s, List.mem_of_getElem? hs, List.mem_iff_getElem?.mpr ⟨k, ?_⟩⟩
      rw [tapPairsOf, List.getElem?_zip_eq_some]
      exact ⟨LiveBundle.getElem?_ports hsrc, LiveBundle.getElem?_ports hdest⟩
    refine ⟨hpair, hg.find?_connectLocked hpairs hpair, ?_⟩
    intro registry board window
    obtain ⟨received, hreceived, htaken⟩ := Send.receives_input hsignal window hsrc hdest
    obtain ⟨carried, hcarried, honly⟩ := Send.carriesOnly_input hsignal window
      (if s.passes registry board then [window] else []) hsrc hdest
    refine ⟨⟨_, received, getElem?_process hs registry board window, ?_, htaken⟩,
      _, carried, ?_, hcarried, honly⟩
    · rw [Send.input_render, hreceived]
    · rw [h.process_prepare registry board window]
      exact rendered_send hs registry board [window]

end

/-- One send in front of the fader and one behind it. The second has a wire from its tap, which is
neither locked nor enabled, and one from the other tap. Then a send for events, whose input has room
for one more: of two events of its tap in the window it takes the first, and in a cycle both. -/
theorem Made.wires_taps_of_unlocked :
    let settings : Settings := { blockLength := 2, sendSlots := 2, postFaderStart := 1 }
    let made := (Channel.create 1 .audio settings).run {}
    let c : Channel := { made.1 with
      fader := match made.1.fader with
        | .stereo pair => .stereo (pair.fill [3, 4] [])
        | tap => tap }
    let left (owner : Owner) (direction : Direction) : PortId :=
      ⟨owner, .audio, direction, 0, .stereoLeft, none⟩
    let right (owner : Owner) (direction : Direction) : PortId :=
      ⟨owner, .audio, direction, 1, .stereoRight, none⟩
    let old : Wire := ⟨left (.fader 1) .output, left (.send 1 1) .input, 2, false, false, 5⟩
    let other : Wire := ⟨left (.prefader 1) .output, left (.send 1 1) .input, 2, false, true, 0⟩
    let d : Desk := ⟨false, .ofList [old, other], {}, made.2, {}⟩
    let few : Settings := { sendSlots := 1, eventCapacity := 3 }
    let madeFew := (Channel.create 2 .event few).run {}
    let note (time : UInt32) : Event := ⟨time, 0x90, 60, 100⟩
    let midi : Channel := { madeFew.1 with
      prefader := match madeFew.1.prefader with
        | .midi port => .midi (port.hold [note 9, note 1, note 2])
        | tap => tap
      sends := madeFew.1.sends.map fun s => { s with
        lines := match s.lines with
          | .event input output => .event (input.hold [note 4, note 0]) output
          | lines => lines } }
    d.rendering = false ∧ d.wiring.Reachable ∧
      (∃ d', c.connectSends d = .ok d' ∧ c.connectSends d' = .ok d' ∧ d'.wiring.wires =
        [⟨left (.fader 1) .output, left (.send 1 1) .input, 1, true, true, 5⟩, other,
          Wiring.lockedWire (left (.prefader 1) .output, left (.send 1 0) .input),
          Wiring.lockedWire (right (.prefader 1) .output, right (.send 1 0) .input),
          Wiring.lockedWire (right (.fader 1) .output, right (.send 1 1) .input)]) ∧
      (∃ s' x, (c.process {} made.2 ⟨0, 1⟩).sends[1]? = some s' ∧
        s'.lines.input.loads[0]? = some (left (.send 1 1) .input, .samples x) ∧
        x[0]? = some 3 ∧ x[1]? = some 0) ∧
      (∃ s' q, (midi.process {} madeFew.2 ⟨0, 5⟩).sends[0]? = some s' ∧
        s'.lines.input.loads[0]? = some (⟨.send 2 0, .event, .input, 0, .none, none⟩, .events q) ∧
        q.events = [note 4, note 0, note 1] ∧ q.dropped = 1) ∧
      ∃ s' q, (midi.prepare.process {} madeFew.2 ⟨0, 5⟩).sends[0]? = some s' ∧
        s'.lines.input.loads[0]? = some (⟨.send 2 0, .event, .input, 0, .none, none⟩, .events q) ∧
        q.events = [note 1, note 2] ∧ q.dropped = 0 := by
  intro settings made c left right old other d few madeFew note midi
  have hmade : c.Made 1 .audio settings := ⟨⟨{}, rfl⟩, trivial, trivial⟩
  have hmidi : midi.Made 2 .event few := ⟨⟨{}, rfl⟩, Nat.le_refl 3, Nat.zero_le 3⟩
  have hg : d.wiring.Reachable := .change (.restore [old, other]) .empty nofun
  obtain ⟨d', hfirst, -, hagain, hwires, hsends⟩ := hmade.wires_taps (d := d) rfl hg
  obtain ⟨-, hports⟩ := hsends 1 _ rfl
  obtain ⟨-, -, hprocess⟩ := hports 0 _ _ _ _ rfl rfl
  obtain ⟨⟨s', x, hs', hload, hreceived⟩, -⟩ := hprocess {} made.2 ⟨0, 1⟩
  obtain ⟨_, -, -, -, -, hsends⟩ := hmidi.wires_taps (d := d) rfl hg
  obtain ⟨-, hports⟩ := hsends 0 _ rfl
  obtain ⟨-, -, hprocess⟩ := hports 0 _ _ _ _ rfl rfl
  obtain ⟨⟨t, q, ht, hqueue, htaken⟩, t', q', ht', hqueue', honly⟩ :=
    hprocess {} madeFew.2 ⟨0, 5⟩
  refine ⟨rfl, hg, ⟨d', hfirst, hagain, hwires.trans (by decide +kernel)⟩, ?_, ?_, ?_⟩
  · cases x with
    | events q => cases hreceived
    | samples x =>
      exact ⟨s', x, hs', hload, (hreceived 0).trans (by decide +kernel),
        (hreceived 1).trans (by decide +kernel)⟩
  · cases q with
    | samples x => cases htaken
    | events q =>
      obtain ⟨hevents, -, hdropped⟩ := htaken
      exact ⟨t, q, ht, hqueue, hevents.trans (by decide +kernel),
        hdropped.trans (by decide +kernel)⟩
  · cases q' with
    | samples x => cases honly
    | events q =>
      exact ⟨t', q, ht', hqueue', (congrArg EventQueue.events honly).trans (by decide +kernel),
        (congrArg EventQueue.dropped honly).trans (by decide +kernel)⟩

end Channel

end MixerRouting
