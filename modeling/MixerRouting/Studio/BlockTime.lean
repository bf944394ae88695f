import MixerRouting.Port.Samples
import MixerRouting.Routing.Fault

/-!
# The time of a block

What an engine tells a node to process: a position on the timeline and a
window of the cycle's buffers.
-/
namespace MixerRouting

structure BlockTime where
  /-- The frame of the timeline at which the cycle starts. -/
  start : Nat
  window : Window
  deriving DecidableEq, Repr

namespace BlockTime

/-- A block that starts with the buffers. -/
def whole (start frames : Nat) : BlockTime := ⟨start, ⟨0, frames⟩⟩

/-- The end of the window as a word of 64 bits. -/
def stop (t : BlockTime) : Except Misuse Nat :=
  if t.window.stop < UInt64.size then .ok t.window.stop else .error .overflow

end BlockTime

end MixerRouting
