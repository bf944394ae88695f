import Mathlib.Data.List.Induction
import MixerRouting.Proofs.Channel.Made
import MixerRouting.Proofs.Send.Rendering

/-!
# What a cycle renders

The buffers of a channel's sends have the sizes of its taps, and their queues
have room for all that a tap can hold. So a cycle of windows that do not overlap
leaves in every send what its tap holds in these windows, whatever was there
before the cycle. How the windows divide the cycle does not matter to samples,
and to events only in their order.
-/
namespace MixerRouting

/-! ### What one window leaves -/

/-- What a sample becomes at an amount: amounts that count as one leave it as it is. -/
def Settings.scaled (settings : Settings) (amount x : Float32) : Float32 :=
  if (amount - 1).abs ≤ settings.unityEpsilon then x else 0 + x * amount

/-- Input and output of one side of a send after one window of a tap: nothing but silence outside
the window, and no more than the tap's samples inside. -/
structure Samples.Rendered (f : Float32 → Float32) (passed : Prop) (w : Window)
    (tap input output : Samples) : Prop where
  heard : ∀ i : Nat, input[i]? = tap[i]?.map fun x => if w.covers i then x else 0
  sent : passed → ∀ i : Nat, output[i]? = tap[i]?.map fun x => if w.covers i then f x else 0
  silent : ¬passed → ∀ i : Nat, output[i]? = tap[i]?.map fun _ => 0

/-- What one window of a cycle makes of a send's ports. Samples go through `f` if they are passed
on. Queues keep their capacity and their count of dropped events, and ports their identities. -/
def SendLines.Rendered (f : Float32 → Float32) (passed : Prop) (w : Window) :
    LiveBundle → SendLines → SendLines → Prop
  | .stereo src, .audio input output, .audio input' output' =>
    input'.faces = input.faces ∧ output'.faces = output.faces ∧
      Samples.Rendered f passed w src.left.samples input'.left.samples output'.left.samples ∧
      Samples.Rendered f passed w src.right.samples input'.right.samples output'.right.samples
  | .midi src, .event input output, .event input' output' =>
    input' = input.hold (src.queue.within w) ∧
      (passed → output' = output.hold (src.queue.within w)) ∧
      (¬passed → output' = output.hold [])
  | _, _, _ => False

theorem Samples.rendered_gate (f : Float32 → Float32) (passed : Bool) (w : Window)
    (tap : Samples) :
    Rendered f (passed = true) w tap (tap.gate (Window.someCovers [w]) id)
      (tap.gate (Window.someCovers (if passed then [w] else [])) f) := by
  rw [Window.someCovers_singleton]
  constructor
  · intro i
    exact getElem?_gate ..
  · intro hpassed i
    rw [if_pos hpassed, Window.someCovers_singleton]
    exact getElem?_gate ..
  · intro hkept i
    rw [if_neg hkept]
    exact getElem?_gate ..

theorem SendLines.rendered_carrying {lines : SendLines} {tap : LiveBundle} (h : lines.Fits tap)
    (f : Float32 → Float32) (passed : Bool) (w : Window) :
    Rendered f (passed = true) w tap lines
      (lines.carrying f [w] (if passed then [w] else []) tap) := by
  cases lines with
  | audio input output =>
    cases tap with
    | stereo src =>
      exact ⟨rfl, rfl, Samples.rendered_gate f passed w _, Samples.rendered_gate f passed w _⟩
    | midi src => cases h
  | event input output =>
    cases tap with
    | stereo src => cases h
    | midi src =>
      simp only [Rendered, carrying, EventQueue.throughout_singleton, true_and]
      constructor
      · intro hpassed
        rw [if_pos hpassed, EventQueue.throughout_singleton]
      · intro hkept
        rw [if_neg hkept]
        rfl

/-! ### Windows in a row -/

/-- The ports differ at most in the order of their events. -/
structure EventPort.Reordered (p q : EventPort) : Prop where
  events : p.queue.events.Perm q.queue.events
  rest : p = q.hold p.queue.events

/-- The ports hold the same samples, or the same events in some order. -/
def SendLines.Reordered : SendLines → SendLines → Prop
  | .audio input output, .audio input' output' => input = input' ∧ output = output'
  | .event input output, .event input' output' =>
    input.Reordered input' ∧ output.Reordered output'
  | _, _ => False

/-- Events come in the order of their times. -/
def LiveBundle.InOrder : LiveBundle → Prop
  | .stereo _ => True
  | .midi port => port.queue.events.Pairwise fun a b => a.time ≤ b.time

section
variable {lines : SendLines} {tap : LiveBundle} (h : lines.Fits tap) (f : Float32 → Float32)
  (passed : Bool) (offset : Nat) (lengths : List Nat)
include h

/-- Windows in a row leave what one window over all their frames leaves, in some order. -/
theorem SendLines.reordered_carrying_row :
    (lines.carrying f (Window.row offset lengths)
        (if passed then Window.row offset lengths else []) tap).Reordered
      (lines.carrying f [⟨offset, lengths.sum⟩]
        (if passed then [⟨offset, lengths.sum⟩] else []) tap) := by
  cases lines with
  | audio input output =>
    cases tap with
    | stereo src =>
      have hcovers : Window.someCovers (Window.row offset lengths) =
          Window.someCovers [⟨offset, lengths.sum⟩] := by
        funext i
        rw [Window.someCovers_row, Window.someCovers_singleton]
      have hinput := congrArg (fun isOpen => input.hold isOpen id src) hcovers
      cases passed with
      | true => exact ⟨hinput, congrArg (fun isOpen => output.hold isOpen f src) hcovers⟩
      | false => exact ⟨hinput, rfl⟩
    | midi src => cases h
  | event input output =>
    cases tap with
    | stereo src => cases h
    | midi src =>
      have hperm : (src.queue.throughout (Window.row offset lengths)).Perm
          (src.queue.throughout [⟨offset, lengths.sum⟩]) := by
        rw [EventQueue.throughout_singleton]
        exact src.queue.perm_throughout_row offset lengths
      cases passed with
      | true => exact ⟨⟨hperm, rfl⟩, hperm, rfl⟩
      | false => exact ⟨⟨hperm, rfl⟩, .refl _, rfl⟩

/-- In order of time, the order is the same too. -/
theorem SendLines.carrying_row (horder : tap.InOrder) :
    lines.carrying f (Window.row offset lengths)
        (if passed then Window.row offset lengths else []) tap =
      lines.carrying f [⟨offset, lengths.sum⟩]
        (if passed then [⟨offset, lengths.sum⟩] else []) tap := by
  have hreordered := reordered_carrying_row h f passed offset lengths
  cases lines with
  | audio input output =>
    cases tap with
    | stereo src => exact congrArg₂ SendLines.audio hreordered.1 hreordered.2
    | midi src => cases h
  | event input output =>
    cases tap with
    | stereo src => cases h
    | midi src =>
      have hqueue : src.queue.throughout (Window.row offset lengths) =
          src.queue.throughout [⟨offset, lengths.sum⟩] := by
        rw [EventQueue.throughout_singleton]
        exact EventQueue.throughout_row_of_sorted horder offset lengths
      cases passed with
      | true => simp only [carrying, if_true, hqueue]
      | false => simp only [carrying, Bool.false_eq_true, if_false, hqueue]

end

namespace Channel

/-! ### Cycles -/

variable {track : OwnerId} {signal : Signal} {settings : Settings} {c : Channel}

theorem Made.sized_tapOf (h : c.Made track signal settings) (s : Send) :
    (c.tapOf s).Sized signal settings := by
  unfold tapOf
  split
  · exact h.sized_prefader
  · exact h.sized_fader

/-- The buffers of a send match those of its tap. -/
theorem Made.fits (h : c.Made track signal settings) {slot : Nat} {s : Send}
    (hs : c.sends[slot]? = some s) : s.lines.Fits (c.tapOf s) := by
  have hsized := h.sized_tapOf s
  have hbounded : (c.tapOf s).Bounded := by
    unfold tapOf
    split
    · exact h.prefader
    · exact h.fader
  obtain ⟨hinput, houtput⟩ := h.sized_send hs
  generalize c.tapOf s = tap at hsized hbounded
  cases hlines : s.lines with
  | audio input output =>
    rw [hlines] at hinput houtput
    cases tap with
    | stereo src =>
      obtain ⟨-, hleft, hright⟩ := hsized
      exact ⟨hinput.2.1.trans hleft.symm, hinput.2.2.trans hright.symm,
        houtput.2.1.trans hleft.symm, houtput.2.2.trans hright.symm⟩
    | midi src => cases hsized.1.symm.trans hinput.1
  | event input output =>
    rw [hlines] at hinput houtput
    cases tap with
    | stereo src => cases hsized.1.symm.trans hinput.1
    | midi src =>
      have hcapacity := hsized.2
      have hin : input.queue.capacity = settings.eventCapacity := hinput.2
      have hout : output.queue.capacity = settings.eventCapacity := houtput.2
      have hlength : src.queue.length ≤ src.queue.capacity := hbounded
      exact ⟨by omega, by omega⟩

/-- The channel after some windows of a cycle. -/
def rendered (c : Channel) (registry : Registry) (board : Board) (ws : List Window) : Channel :=
  { c with sends := c.sends.map fun s =>
      s.carrying (c.tapOf s) ws (if s.passes registry board then ws else []) }

theorem Made.prepare_eq (h : c.Made track signal settings) (registry : Registry) (board : Board) :
    c.prepare = c.rendered registry board [] := by
  have hsends : c.sends.map Send.prepare = c.sends.map fun s =>
      s.carrying (c.tapOf s) [] (if s.passes registry board then [] else []) := by
    apply List.map_congr_left
    intro s hs
    obtain ⟨slot, hslot⟩ := List.mem_iff_getElem?.mp hs
    rw [ite_self]
    exact Send.prepare_eq_carrying (h.fits hslot)
  exact congrArg (fun sends => { c with sends }) hsends

theorem Made.process_rendered (h : c.Made track signal settings) (registry : Registry)
    (board : Board) {ws : List Window} {w : Window} (hws : (ws ++ [w]).Pairwise Window.Apart) :
    (c.rendered registry board ws).process registry board w =
      c.rendered registry board (ws ++ [w]) := by
  simp only [rendered, process, List.map_map]
  congr 1
  apply List.map_congr_left
  intro s hs
  obtain ⟨slot, hslot⟩ := List.mem_iff_getElem?.mp hs
  exact Send.render_receive_carrying (h.fits hslot) hws registry board

/-- A cycle of windows of which no two overlap. -/
theorem Made.foldl_process (h : c.Made track signal settings) (registry : Registry)
    (board : Board) {ws : List Window} (hws : ws.Pairwise Window.Apart) :
    ws.foldl (fun c w => c.process registry board w) c.prepare = c.rendered registry board ws := by
  -- From the last window back: the buffers carry all windows before it.
  induction ws using List.reverseRecOn with
  | nil => exact h.prepare_eq registry board
  | append_singleton ws w ih =>
    have hearlier := (List.pairwise_append.mp hws).1
    rw [List.foldl_append, ih hearlier]
    exact h.process_rendered registry board hws

theorem Made.process_prepare (h : c.Made track signal settings) (registry : Registry)
    (board : Board) (w : Window) :
    c.prepare.process registry board w = c.rendered registry board [w] :=
  h.foldl_process registry board (List.pairwise_singleton _ w)

theorem Made.tapOf_send (h : c.Made track signal settings) {slot : Nat} {s : Send}
    (hs : c.sends[slot]? = some s) :
    c.tapOf s = if slot < settings.postFaderStart then c.prefader else c.fader := by
  rw [tapOf, h.isPrefader_send hs]
  by_cases hslot : slot < settings.postFaderStart
  · rw [if_pos hslot, decide_eq_true hslot, if_pos rfl]
  · rw [if_neg hslot, decide_eq_false hslot, if_neg Bool.false_ne_true]

theorem Made.scaled_send (h : c.Made track signal settings) {slot : Nat} {s : Send}
    (hs : c.sends[slot]? = some s) : s.scaled = settings.scaled s.amount.value := by
  funext x
  simp only [Send.scaled, Send.countsAsUnity, Fader.near, h.unityEpsilon_send hs,
    decide_eq_true_eq]
  rfl

theorem rendered_send {slot : Nat} {s : Send} (hs : c.sends[slot]? = some s) (registry : Registry)
    (board : Board) (ws : List Window) :
    (c.rendered registry board ws).sends[slot]? =
      some (s.carrying (c.tapOf s) ws (if s.passes registry board then ws else [])) := by
  rw [rendered, List.getElem?_map, hs]
  rfl

/-- What a cycle of one window renders, whatever the channel's ports hold before it, whatever is on
the board, and wherever the window lies. Only the buffers of the sends change. Each send has in its
inputs what its tap holds inside of the window. It has the same in its outputs, scaled unless the
amount counts as one, if it is switched on and its first output has one route that is usable;
otherwise it has nothing there. -/
theorem Made.renders_window (h : c.Made track signal settings) (registry : Registry)
    (board : Board) (w : Window) :
    let after := c.prepare.process registry board w
    after = { c with sends := after.sends } ∧ after.sends.length = c.sends.length ∧
      ∀ (slot : Nat) (s : Send), c.sends[slot]? = some s →
        ∃ lines, after.sends[slot]? = some { s with lines } ∧
          SendLines.Rendered (settings.scaled s.amount.value)
            (s.isOn = true ∧ ∃ route, (board.read s.primaryOutputSlot).destinations = [route] ∧
              registry.usable route = true)
            w (if slot < settings.postFaderStart then c.prefader else c.fader) s.lines lines := by
  intro after
  have hafter : after = c.rendered registry board [w] := h.process_prepare registry board w
  rw [hafter]
  refine ⟨rfl, List.length_map .., ?_⟩
  intro slot s hs
  refine ⟨_, rendered_send hs registry board [w], ?_⟩
  rw [← s.passes_iff, ← h.tapOf_send hs, ← h.scaled_send hs]
  exact SendLines.rendered_carrying (h.fits hs) s.scaled (s.passes registry board) w

/-- One send at half level with one route, and a window that reaches past the end of the block. -/
theorem Made.renders_window_of_half :
    let settings : Settings := { blockLength := 4, sendSlots := 1, postFaderStart := 1 }
    let made := (Channel.create 1 .audio settings).run {}
    let half : Float32 := Float32.ofBits 0x3f000000
    let c : Channel := { made.1 with
      prefader := match made.1.prefader with
        | .stereo pair => .stereo (pair.fill [1, 2, 3, 4] [])
        | tap => tap
      sends := made.1.sends.map fun s => (s.switchedOn false).setAmount half }
    let board := made.2.post ⟨4⟩ ⟨[], [⟨⟨.trackInput 2, .audio, .input, 0, .none, none⟩, 1, none⟩]⟩
    ∃ input output, ((c.prepare.process {} board ⟨2, 100⟩).sends[0]?.map Send.lines) =
        some (.audio input output) ∧
      input.left.samples[1]? = some 0 ∧ input.left.samples[2]? = some 3 ∧
      output.left.samples[1]? = some 0 ∧ output.left.samples[3]? = some 2 ∧
      output.left.samples[4]? = none := by
  intro settings made half c board
  have hmade : c.Made 1 .audio settings := ⟨⟨{}, rfl⟩, trivial, trivial⟩
  obtain ⟨-, -, hsends⟩ := hmade.renders_window {} board ⟨2, 100⟩
  obtain ⟨lines, hafter, hrendered⟩ := hsends 0 _ rfl
  cases lines with
  | event input output => cases hrendered
  | audio input output =>
    obtain ⟨-, -, ⟨hheard, hsent, -⟩, -⟩ := hrendered
    have hpassed := hsent ⟨by decide +kernel, _, rfl, rfl⟩
    refine ⟨input, output, by rw [hafter]; rfl, ?_⟩
    rw [hheard, hheard, hpassed, hpassed, hpassed]
    decide +kernel

/-- A cycle in several windows, each of which begins where the one before it ends, renders what one
window over all their frames renders: the same samples, and the same events, none of them dropped.
Events are in the same order too if those of the tap are in the order of their times. -/
theorem Made.divides_window (h : c.Made track signal settings) (registry : Registry)
    (board : Board) (offset : Nat) (lengths : List Nat) :
    let whole := c.prepare.process registry board ⟨offset, lengths.sum⟩
    let divided :=
      (Window.row offset lengths).foldl (fun c w => c.process registry board w) c.prepare
    divided = { whole with sends := divided.sends } ∧
      divided.sends.length = whole.sends.length ∧
      ∀ (slot : Nat) (s : Send), c.sends[slot]? = some s → ∃ lines lines',
        divided.sends[slot]? = some { s with lines } ∧
        whole.sends[slot]? = some { s with lines := lines' } ∧
        lines.Reordered lines' ∧ ((c.tapOf s).InOrder → lines = lines') ∧
        SendLines.Rendered (settings.scaled s.amount.value) (s.passes registry board = true)
          ⟨offset, lengths.sum⟩ (c.tapOf s) s.lines lines' := by
  intro whole divided
  have hwhole : whole = c.rendered registry board [⟨offset, lengths.sum⟩] :=
    h.process_prepare registry board _
  have hdivided : divided = c.rendered registry board (Window.row offset lengths) :=
    h.foldl_process registry board (Window.pairwise_apart_row offset lengths)
  rw [hwhole, hdivided]
  refine ⟨rfl, by simp only [rendered, List.length_map], ?_⟩
  intro slot s hs
  have hfits := h.fits hs
  refine ⟨_, _, rendered_send hs registry board _, rendered_send hs registry board _, ?_, ?_, ?_⟩
  · exact SendLines.reordered_carrying_row hfits s.scaled _ offset lengths
  · exact SendLines.carrying_row hfits s.scaled _ offset lengths
  · rw [← h.scaled_send hs]
    exact SendLines.rendered_carrying hfits s.scaled (s.passes registry board) _

/-- A tap whose second event is earlier than its first, and a cycle in two windows. -/
theorem Made.divides_window_of_late_event :
    let settings : Settings := { sendSlots := 1, eventCapacity := 2 }
    let made := (Channel.create 1 .event settings).run {}
    let late : Event := ⟨3, 0x80, 60, 0⟩
    let early : Event := ⟨0, 0x90, 60, 100⟩
    let c : Channel := { made.1 with
      prefader := match made.1.prefader with
        | .midi port => .midi (port.hold [late, early])
        | tap => tap }
    let whole := c.prepare.process {} made.2 ⟨0, 5⟩
    let divided := (Window.row 0 [2, 3]).foldl (fun c w => c.process {} made.2 w) c.prepare
    ∃ input output input' output',
      divided.sends[0]?.map Send.lines = some (.event input output) ∧
      whole.sends[0]?.map Send.lines = some (.event input' output') ∧
      input'.queue = ⟨[late, early], 2, 0⟩ ∧ input.queue.events.Perm [late, early] ∧
      input.queue.dropped = 0 := by
  intro settings made late early c whole divided
  have hmade : c.Made 1 .event settings := ⟨⟨{}, rfl⟩, Nat.le_refl 2, Nat.zero_le 2⟩
  obtain ⟨-, -, hsends⟩ := hmade.divides_window {} made.2 0 [2, 3]
  obtain ⟨lines, lines', hdivided, hwhole, hreordered, -, hrendered⟩ := hsends 0 _ rfl
  cases lines' with
  | audio input' output' => cases hrendered
  | event input' output' =>
    cases lines with
    | audio input output => cases hreordered
    | event input output =>
      obtain ⟨⟨hevents, hrest⟩, -⟩ := hreordered
      have hqueue : input'.queue = ⟨[late, early], 2, 0⟩ := by
        rw [hrendered.1]
        decide +kernel
      rw [hqueue] at hevents
      refine ⟨input, output, input', output', ?_, ?_, hqueue, hevents, ?_⟩
      · exact congrArg (Option.map Send.lines) hdivided
      · exact congrArg (Option.map Send.lines) hwhole
      · rw [hrest]
        exact congrArg EventQueue.dropped hqueue

end Channel

end MixerRouting
