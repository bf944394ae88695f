import MixerRouting.Port.Samples

/-!
# Windows clipped to memory

Samples lie in memory as words, and an engine says with machine words where a
window begins and how long it is. Copying and mixing clip the window to the
shorter one of two buffers, slice both buffers there and work on the slices.
Slicing a buffer beyond its end and copying between slices of different lengths
have no result.
-/
namespace MixerRouting

/-- The frames from `start` up to but not including `stop`. -/
structure FrameRange where
  start : UInt64
  stop : UInt64
  deriving DecidableEq, Repr

/-- What a buffer of some length has of a window. -/
def FrameRange.clip (length offset frames : UInt64) : FrameRange :=
  ⟨min offset length, min (saturatingAdd offset frames) length⟩

/-- Samples as words in memory. -/
structure RawSamples where
  words : Array UInt32
  /-- The length is a machine word. -/
  addressable : words.size < UInt64.size
  deriving DecidableEq

namespace RawSamples

def length (b : RawSamples) : UInt64 := UInt64.ofNatLT b.words.size b.addressable

/-- The numbers that the words stand for. -/
def samples (b : RawSamples) : Samples := b.words.map Float32.ofBits

/-- The words in a range of frames, if the buffer reaches that far. -/
def slice? (b : RawSamples) (range : FrameRange) : Option (List UInt32) :=
  if range.start ≤ range.stop ∧ range.stop ≤ b.length then
    some (b.words.extract range.start.toNat range.stop.toNat).toList
  else none

/-- Puts words in the place of those from a frame on. -/
def write (b : RawSamples) (start : UInt64) (part : List UInt32) : RawSamples where
  words := b.words.mapIdx fun i word =>
    if start.toNat ≤ i then part[i - start.toNat]?.getD word else word
  addressable := by rw [Array.size_mapIdx]; exact b.addressable

end RawSamples

/-- What is done to a window of a buffer with another one. -/
inductive WindowWork where
  | copy
  /-- Adds the samples of the other buffer after scaling them. -/
  | mix (gain : Float32)
  deriving DecidableEq

namespace WindowWork

/-- What becomes of one word with its partner. -/
def word : WindowWork → UInt32 → UInt32 → UInt32
  | .copy, _, source => source
  | .mix gain, target, source =>
    (Float32.ofBits target + Float32.ofBits source * gain).toBits

/-- Goes through two slices side by side until one of them ends. -/
def pairwise (f : UInt32 → UInt32 → UInt32) : List UInt32 → List UInt32 → List UInt32
  | target :: targets, source :: sources => f target source :: pairwise f targets sources
  | targets, _ => targets

/-- What becomes of a slice. Copying takes the other slice as a whole. -/
def slices? : WindowWork → List UInt32 → List UInt32 → Option (List UInt32)
  | .copy, targets, sources => if targets.length = sources.length then some sources else none
  | .mix gain, targets, sources => some (pairwise (mix gain).word targets sources)

/-- What becomes of a buffer, if nothing is out of range. -/
def run? (work : WindowWork) (target source : RawSamples) (offset frames : UInt64) :
    Option RawSamples := do
  let range := FrameRange.clip (min target.length source.length) offset frames
  let targets ← target.slice? range
  let sources ← source.slice? range
  return target.write range.start (← work.slices? targets sources)

end WindowWork

/-- Work from one of several buffers into another one. -/
structure WindowCall (ι : Type) where
  work : WindowWork
  target : ι
  source : ι
  /-- No buffer is its own source. -/
  distinct : target ≠ source
  offset : UInt64
  frames : UInt64

namespace WindowCall

variable {ι : Type} [DecidableEq ι]

/-- The buffers after the work. -/
def run? (call : WindowCall ι) (buffers : ι → RawSamples) : Option (ι → RawSamples) := do
  let target := buffers call.target
  let after ← call.work.run? target (buffers call.source) call.offset call.frames
  return fun b => if b = call.target then after else buffers b

end WindowCall

end MixerRouting
