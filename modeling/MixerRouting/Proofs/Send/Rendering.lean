import MixerRouting.Proofs.Port.Queues
import MixerRouting.Proofs.Port.Windows
import MixerRouting.Send.Render

/-!
# A send from window to window

After any number of windows the buffers of a send are a function of its tap and
of the windows so far, if no two of them overlap: the inputs hold what the tap
holds there, and the outputs hold the same, scaled, if the send passes its
signal on. This is so after clearing, with no windows; feeding a send adds a
window to its inputs and forwarding adds it to its outputs.
-/
namespace MixerRouting

/-! ### Buffers -/

/-- The pair with what is left of another pair's samples behind a gate. -/
def StereoPair.hold (dst : StereoPair) (isOpen : Nat → Bool) (f : Float32 → Float32)
    (src : StereoPair) : StereoPair :=
  dst.zip (fun _ x => x.gate isOpen f) src

theorem StereoPair.clear_eq_hold {dst src : StereoPair} (f : Float32 → Float32)
    (hleft : dst.left.samples.size = src.left.samples.size)
    (hright : dst.right.samples.size = src.right.samples.size) :
    dst.clear = dst.hold (fun _ => false) f src := by
  simp only [clear, AudioPort.clear, hold, zip, Samples.gate_closed, hleft, hright]

/-- Working in one more window on a pair opens its gate there, with the samples of a pair that holds
the source there. -/
theorem StereoPair.hold_zipWindow (dst : StereoPair) {src other : StereoPair} {ws : List Window}
    {w : Window} {supplied : Nat → Bool} {f : Float32 → Float32}
    {g : Float32 → Float32 → Float32} (hws : (ws ++ [w]).Pairwise Window.Apart)
    (hsupplied : ∀ i, w.covers i = true → supplied i = true) (hg : ∀ x, g 0 x = f x) :
    (dst.hold (Window.someCovers ws) f src).zip (Samples.zipWindow g w)
        (other.hold supplied id src) =
      dst.hold (Window.someCovers (ws ++ [w])) f src := by
  have hearlier : ∀ v ∈ ws, v.Apart w := fun v hv =>
    (List.pairwise_append.mp hws).2.2 v hv w (List.mem_singleton_self w)
  have hgate : ∀ x : Samples,
      Samples.zipWindow g w (x.gate (Window.someCovers ws) f) (x.gate supplied id) =
        x.gate (Window.someCovers (ws ++ [w])) f := by
    intro x
    have hconcat : Window.someCovers (ws ++ [w]) =
        fun i => Window.someCovers ws i || w.covers i := by
      funext i
      exact Window.someCovers_concat ws w i
    rw [hconcat]
    exact Samples.zipWindow_gate x (fun i => Window.someCovers_eq_false hearlier) hsupplied hg
  simp only [hold, zip, hgate]

/-- The port with other events in its queue. -/
def EventPort.hold (p : EventPort) (events : List Event) : EventPort :=
  { p with queue := { p.queue with events } }

/-- What a port takes over from a queue in one more window, if there is room for it. -/
theorem EventPort.hold_appendWindow {p src : EventPort} {events added : List Event} {w : Window}
    (hadded : src.queue.within w = added)
    (hroom : (events ++ added).length ≤ p.queue.capacity) :
    ((p.hold events).appendWindow w src).2 = p.hold (events ++ added) := by
  have hfits : (p.hold events).queue.length + (src.queue.within w).length
      ≤ (p.hold events).queue.capacity := by
    rw [hadded]
    rw [List.length_append] at hroom
    exact hroom
  have hqueue := EventQueue.appendWindow_of_room hfits
  rw [hadded] at hqueue
  exact congrArg (fun queue => { p with queue }) hqueue

namespace SendLines

/-- The buffers match those of a tap: blocks of one length, or room for all its events. -/
def Fits : SendLines → LiveBundle → Prop
  | .audio input output, .stereo src =>
    input.left.samples.size = src.left.samples.size ∧
      input.right.samples.size = src.right.samples.size ∧
      output.left.samples.size = src.left.samples.size ∧
      output.right.samples.size = src.right.samples.size
  | .event input output, .midi src =>
    src.queue.length ≤ input.queue.capacity ∧ src.queue.length ≤ output.queue.capacity
  | _, _ => False

/-- The buffers when the inputs have heard some windows of the tap and the outputs were sent some,
with the samples through `f`. -/
def carrying (f : Float32 → Float32) (heard sent : List Window) : SendLines → LiveBundle → SendLines
  | .audio input output, .stereo src =>
    .audio (input.hold (Window.someCovers heard) id src)
      (output.hold (Window.someCovers sent) f src)
  | .event input output, .midi src =>
    .event (input.hold (src.queue.throughout heard)) (output.hold (src.queue.throughout sent))
  | lines, _ => lines

theorem clear_eq_carrying {lines : SendLines} {tap : LiveBundle} (h : lines.Fits tap)
    (f : Float32 → Float32) : lines.clear = lines.carrying f [] [] tap := by
  cases lines with
  | audio input output =>
    cases tap with
    | stereo src =>
      obtain ⟨hil, hir, hol, hor⟩ := h
      simp only [clear, StereoPair.clear_eq_hold id hil hir, StereoPair.clear_eq_hold f hol hor]
      rfl
    | midi src => cases h
  | event input output =>
    cases tap with
    | stereo src => cases h
    | midi src => rfl

@[simp] theorem primarySlot_carrying (f : Float32 → Float32) (heard sent : List Window)
    (lines : SendLines) (tap : LiveBundle) :
    (lines.carrying f heard sent tap).output.primarySlot = lines.output.primarySlot := by
  cases lines <;> cases tap <;> rfl

end SendLines

/-! ### Sends -/

namespace Send

/-- Whether render code passes the inputs on. -/
def passes (s : Send) (registry : Registry) (board : Board) : Bool :=
  s.isOn && s.routeUsable registry board

theorem passes_iff (s : Send) (registry : Registry) (board : Board) :
    s.passes registry board = true ↔ s.isOn = true ∧
      ∃ route, (board.read s.primaryOutputSlot).destinations = [route] ∧
        registry.usable route = true := by
  rw [passes, Bool.and_eq_true]
  refine and_congr_right fun _ => ?_
  unfold routeUsable Routes.soleDestination
  split
  · rename_i route hsole
    split at hsole
    · rename_i only honly
      cases hsole
      simp only [honly, List.cons.injEq, and_true, exists_eq_left']
    · cases hsole
  · rename_i hsole
    split at hsole
    · cases hsole
    · rename_i hmany
      refine iff_of_false Bool.false_ne_true ?_
      rintro ⟨route, hone, -⟩
      exact hmany route hone

theorem render_eq (s : Send) (registry : Registry) (board : Board) (w : Window) :
    s.render registry board w = if s.passes registry board then s.forward w else s := rfl

/-- What becomes of a sample that is passed on. -/
def scaled (s : Send) (x : Float32) : Float32 :=
  if s.countsAsUnity then x else 0 + x * s.amount.value

/-- The send when its inputs have heard some windows of a tap and its outputs were sent some. -/
def carrying (s : Send) (tap : LiveBundle) (heard sent : List Window) : Send :=
  { s with lines := s.lines.carrying s.scaled heard sent tap }

@[simp] theorem passes_carrying (s : Send) (tap : LiveBundle) (heard sent : List Window)
    (registry : Registry) (board : Board) :
    (s.carrying tap heard sent).passes registry board = s.passes registry board := by
  simp only [passes, routeUsable, isOn, primaryOutputSlot, carrying,
    SendLines.primarySlot_carrying]

theorem prepare_eq_carrying {s : Send} {tap : LiveBundle} (h : s.lines.Fits tap) :
    s.prepare = s.carrying tap [] [] := by
  rw [prepare, carrying, ← SendLines.clear_eq_carrying h]

section
variable {s : Send} {tap : LiveBundle} (h : s.lines.Fits tap) {ws : List Window} {w : Window}
  (hws : (ws ++ [w]).Pairwise Window.Apart)
include h hws

theorem receive_carrying (sent : List Window) :
    (s.carrying tap ws sent).receive tap w = s.carrying tap (ws ++ [w]) sent := by
  cases hlines : s.lines with
  | audio input output =>
    cases tap with
    | stereo src =>
      have hinput : (input.hold (Window.someCovers ws) id src).zip (Samples.copyWindow w) src =
          input.hold (Window.someCovers (ws ++ [w])) id src := by
        -- A tap is what an open gate leaves of it, so that feeding works like forwarding.
        have hsrc : src.hold (fun _ => true) id src = src := by
          simp only [StereoPair.hold, StereoPair.zip, Samples.gate_open]
        have hcopy : (input.hold (Window.someCovers ws) id src).zip (Samples.copyWindow w)
            (src.hold (fun _ => true) id src) = input.hold (Window.someCovers (ws ++ [w])) id src :=
          input.hold_zipWindow hws (fun _ _ => rfl) (fun _ => rfl)
        rwa [hsrc] at hcopy
      simp only [carrying, receive, SendLines.carrying, hlines, hinput]
    | midi src => rw [hlines] at h; cases h
  | event input output =>
    cases tap with
    | stereo src => rw [hlines] at h; cases h
    | midi src =>
      rw [hlines] at h
      have hroom : (src.queue.throughout ws ++ src.queue.within w).length ≤
          input.queue.capacity := by
        rw [← EventQueue.throughout_concat]
        exact Nat.le_trans (src.queue.length_throughout_le hws) h.1
      have hinput := EventPort.hold_appendWindow rfl hroom
      simp only [carrying, receive, SendLines.carrying, hlines, hinput,
        EventQueue.throughout_concat]

theorem forward_carrying :
    (s.carrying tap (ws ++ [w]) ws).forward w = s.carrying tap (ws ++ [w]) (ws ++ [w]) := by
  cases hlines : s.lines with
  | audio input output =>
    cases tap with
    | stereo src =>
      have hheard : ∀ i, w.covers i = true → Window.someCovers (ws ++ [w]) i = true := by
        intro i hi
        rw [Window.someCovers_concat, hi, Bool.or_true]
      have houtput : (output.hold (Window.someCovers ws) s.scaled src).zip
          (if s.countsAsUnity then Samples.copyWindow w
            else Samples.mixWindow s.amount.value w)
          (input.hold (Window.someCovers (ws ++ [w])) id src) =
          output.hold (Window.someCovers (ws ++ [w])) s.scaled src := by
        split
        · rename_i hunity
          exact output.hold_zipWindow hws hheard fun x => (if_pos hunity).symm
        · rename_i hunity
          exact output.hold_zipWindow hws hheard fun x => (if_neg hunity).symm
      simp only [carrying, SendLines.carrying, hlines]
      exact congrArg (fun output : StereoPair =>
        { s with lines := .audio (input.hold (Window.someCovers (ws ++ [w])) id src) output })
        houtput
    | midi src => rw [hlines] at h; cases h
  | event input output =>
    cases tap with
    | stereo src => rw [hlines] at h; cases h
    | midi src =>
      rw [hlines] at h
      have hearlier : ∀ v ∈ ws, v.Apart w := fun v hv =>
        (List.pairwise_append.mp hws).2.2 v hv w (List.mem_singleton_self w)
      have hadded := src.queue.filter_throughout_concat hearlier
      have hroom : (src.queue.throughout ws ++ src.queue.within w).length ≤
          output.queue.capacity := by
        rw [← EventQueue.throughout_concat]
        exact Nat.le_trans (src.queue.length_throughout_le hws) h.2
      have houtput : ((output.hold (src.queue.throughout ws)).appendWindow w
          (input.hold (src.queue.throughout (ws ++ [w])))).2 =
          output.hold (src.queue.throughout ws ++ src.queue.within w) :=
        EventPort.hold_appendWindow hadded hroom
      rw [← EventQueue.throughout_concat] at houtput
      simp only [carrying, forward, SendLines.carrying, hlines, houtput]

/-- Feeding and rendering in one more window adds the window. -/
theorem render_receive_carrying (registry : Registry) (board : Board) :
    ((s.carrying tap ws (if s.passes registry board then ws else [])).receive tap w).render
        registry board w =
      s.carrying tap (ws ++ [w]) (if s.passes registry board then ws ++ [w] else []) := by
  rw [receive_carrying h hws, render_eq, passes_carrying]
  cases s.passes registry board with
  | true => exact forward_carrying h hws
  | false => rfl

end

end Send

end MixerRouting
