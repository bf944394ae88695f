import MixerRouting.Proofs.Port.Clipping
import MixerRouting.Proofs.Send.Rendering

/-!
# Sends in memory

Samples lie in memory as words, and an engine gives windows by machine words.
There, feeding and forwarding are the clipped work on the words of two pairs of
buffers: it succeeds, and the samples of the send go on lying in the words. So
what holds of a send from window to window holds of the words.
-/
namespace MixerRouting

/-- The window that an engine gives by its offset and its length. -/
def Window.ofWords (w : UInt64 × UInt64) : Window := ⟨w.1.toNat, w.2.toNat⟩

/-! ### Pairs -/

/-- The words of a stereo pair. -/
structure RawPair where
  left : RawSamples
  right : RawSamples

/-- Works on both channels, each with the same channel of `source`. -/
def RawPair.work? (target : RawPair) (work : WindowWork) (source : RawPair)
    (w : UInt64 × UInt64) : Option RawPair := do
  let left ← work.run? target.left source.left w.1 w.2
  return ⟨left, ← work.run? target.right source.right w.1 w.2⟩

/-- The samples are the numbers that the words stand for. -/
structure StereoPair.LiesIn (p : StereoPair) (raw : RawPair) : Prop where
  left : p.left.samples = raw.left.samples
  right : p.right.samples = raw.right.samples

/-- Work on pairs is work on the words that they lie in, and it succeeds. -/
theorem StereoPair.LiesIn.exists_work? {dst src : StereoPair} {target source : RawPair}
    (hdst : dst.LiesIn target) (hsrc : src.LiesIn source) (work : WindowWork)
    (w : UInt64 × UInt64) : ∃ after, target.work? work source w = some after ∧
      (dst.zip (work.onSamples (.ofWords w)) src).LiesIn after := by
  obtain ⟨left, hleft, hleftSamples⟩ := Option.map_eq_some_iff.mp
    (work.run?_samples target.left source.left w.1 w.2)
  obtain ⟨right, hright, hrightSamples⟩ := Option.map_eq_some_iff.mp
    (work.run?_samples target.right source.right w.1 w.2)
  refine ⟨⟨left, right⟩, by rw [RawPair.work?, hleft, hright]; rfl, ?_, ?_⟩
  · rw [hleftSamples, ← hdst.left, ← hsrc.left]
    rfl
  · rw [hrightSamples, ← hdst.right, ← hsrc.right]
    rfl

/-! ### Sends -/

/-- The words of the buffers of an audio send. -/
structure SendMemory where
  input : RawPair
  output : RawPair

namespace SendMemory

/-- Takes over what a window has of the tapped words. -/
def receive? (m : SendMemory) (tap : RawPair) (w : UInt64 × UInt64) : Option SendMemory := do
  return { m with input := ← m.input.work? .copy tap w }

/-- Passes on what a window has of the inputs. -/
def forward? (m : SendMemory) (work : WindowWork) (w : UInt64 × UInt64) : Option SendMemory := do
  return { m with output := ← m.output.work? work m.input w }

/-- Both in one window; nothing is passed on by a send that takes no part. -/
def render? (m : SendMemory) (tap : RawPair) (work : Option WindowWork) (w : UInt64 × UInt64) :
    Option SendMemory := do
  let m ← m.receive? tap w
  match work with
  | some work => m.forward? work w
  | none => return m

end SendMemory

namespace Send

/-- An audio send with its buffers. -/
def LiesIn (s : Send) (m : SendMemory) : Prop :=
  ∃ input output, s.lines = .audio input output ∧ input.LiesIn m.input ∧ output.LiesIn m.output

/-- How the inputs are passed on. -/
def passing (s : Send) : WindowWork := if s.countsAsUnity then .copy else .mix s.amount.value

theorem onSamples_passing (s : Send) (w : Window) : s.passing.onSamples w =
    if s.countsAsUnity then Samples.copyWindow w else Samples.mixWindow s.amount.value w := by
  rw [passing]
  cases s.countsAsUnity <;> rfl

/-- How the inputs are passed on, if they are. -/
def passing? (s : Send) (registry : Registry) (board : Board) : Option WindowWork :=
  if s.passes registry board then some s.passing else none

/-- What a send does in one window. -/
def inWindow (s : Send) (tap : LiveBundle) (registry : Registry) (board : Board) (w : Window) :
    Send :=
  (s.receive tap w).render registry board w

section
variable (s : Send) (tap : LiveBundle) (registry : Registry) (board : Board) (w : Window)

theorem passing?_receive : (s.receive tap w).passing? registry board =
    s.passing? registry board := by
  cases hlines : s.lines <;> cases tap <;>
    simp only [receive, passing?, passes, isOn, routeUsable, primaryOutputSlot, hlines] <;> rfl

theorem passing?_forward : (s.forward w).passing? registry board = s.passing? registry board := by
  cases hlines : s.lines <;>
    simp only [forward, passing?, passes, isOn, routeUsable, primaryOutputSlot, hlines] <;> rfl

/-- Whether and how a send passes its inputs on does not depend on what is in its buffers. -/
theorem passing?_inWindow : (s.inWindow tap registry board w).passing? registry board =
    s.passing? registry board := by
  rw [inWindow, render]
  split
  · rw [passing?_forward, passing?_receive]
  · rw [passing?_receive]

end

section
variable {s : Send} {m : SendMemory} (h : s.LiesIn m)
include h

theorem LiesIn.exists_receive? {tap : StereoPair} {raw : RawPair} (htap : tap.LiesIn raw)
    (w : UInt64 × UInt64) : ∃ after, m.receive? raw w = some after ∧
      (s.receive (.stereo tap) (.ofWords w)).LiesIn after := by
  obtain ⟨input, output, hlines, hinput, houtput⟩ := h
  obtain ⟨after, hafter, hlies⟩ := hinput.exists_work? htap .copy w
  refine ⟨⟨after, m.output⟩, by rw [SendMemory.receive?, hafter]; rfl, ?_⟩
  refine ⟨_, output, ?_, hlies, houtput⟩
  simp only [receive, hlines, WindowWork.onSamples]

theorem LiesIn.exists_forward? (w : UInt64 × UInt64) :
    ∃ after, m.forward? s.passing w = some after ∧ (s.forward (.ofWords w)).LiesIn after := by
  obtain ⟨input, output, hlines, hinput, houtput⟩ := h
  obtain ⟨after, hafter, hlies⟩ := houtput.exists_work? hinput s.passing w
  refine ⟨⟨m.input, after⟩, by rw [SendMemory.forward?, hafter]; rfl, ?_⟩
  refine ⟨input, _, ?_, hinput, hlies⟩
  simp only [forward, hlines, onSamples_passing]

end

section
variable {s : Send} {m : SendMemory} (h : s.LiesIn m) {tap : StereoPair} {raw : RawPair}
  (htap : tap.LiesIn raw) (registry : Registry) (board : Board)
include h htap

theorem LiesIn.exists_render? (w : UInt64 × UInt64) :
    ∃ after, m.render? raw (s.passing? registry board) w = some after ∧
      (s.inWindow (.stereo tap) registry board (.ofWords w)).LiesIn after := by
  obtain ⟨heard, hheard, hlies⟩ := h.exists_receive? htap w
  have hpassing := s.passing?_receive (.stereo tap) registry board (.ofWords w)
  rw [inWindow, render_eq, ← hpassing, SendMemory.render?, hheard, passing?]
  cases (s.receive (.stereo tap) (.ofWords w)).passes registry board with
  | true => exact hlies.exists_forward? w
  | false => exact ⟨heard, rfl, hlies⟩

/-- Any number of windows, whether or not they overlap. -/
theorem LiesIn.exists_renderAll? (windows : List (UInt64 × UInt64)) :
    ∃ after, windows.foldlM (fun m w => m.render? raw (s.passing? registry board) w) m =
        some after ∧
      (windows.foldl (fun s w => s.inWindow (.stereo tap) registry board (.ofWords w)) s).LiesIn
        after := by
  induction windows generalizing s m with
  | nil => exact ⟨m, rfl, h⟩
  | cons w rest ih =>
    obtain ⟨rendered, hrendered, hlies⟩ := h.exists_render? htap registry board w
    obtain ⟨after, hafter, hlast⟩ := ih hlies
    rw [s.passing?_inWindow] at hafter
    refine ⟨after, ?_, hlast⟩
    rw [List.foldlM_cons, hrendered]
    exact hafter

end

end Send

end MixerRouting
