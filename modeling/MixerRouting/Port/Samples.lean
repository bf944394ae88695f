/-!
# Sample buffers and windows

An engine processes its buffers in windows. A window that reaches past the
end of a buffer counts only as far as the buffer goes; its end is the exact
sum of offset and length, however large. Where windows are given by machine
words, the sum of two words stops at the greatest one.

Samples are numbers, and there is one NaN among them: buffers with the same
samples may still differ in the words that their NaNs have in memory. What
copying does to words is said where samples are words, in `Port.Clip`.
-/
namespace MixerRouting

/-- The frames from `offset` up to but not including `offset + frames`. -/
structure Window where
  offset : Nat
  frames : Nat
  deriving DecidableEq, Repr

namespace Window

def stop (w : Window) : Nat := w.offset + w.frames

def covers (w : Window) (i : Nat) : Bool := w.offset ≤ i && i < w.stop

theorem covers_iff (w : Window) (i : Nat) : w.covers i = true ↔ w.offset ≤ i ∧ i < w.stop := by
  simp [covers]

end Window

/-- The sum of two machine words, or the greatest one if the sum is above it. -/
def saturatingAdd (a b : UInt64) : UInt64 :=
  if a.toNat + b.toNat < UInt64.size then a + b else UInt64.ofNat (UInt64.size - 1)

theorem toNat_saturatingAdd (a b : UInt64) :
    (saturatingAdd a b).toNat = min (a.toNat + b.toNat) (UInt64.size - 1) := by
  unfold saturatingAdd
  split
  next hfits =>
    rw [UInt64.toNat_add, Nat.mod_eq_of_lt hfits]
    omega
  next hover =>
    rw [UInt64.toNat_ofNat', Nat.mod_eq_of_lt (by decide)]
    omega

abbrev Samples := Array Float32

namespace Samples

def silence (length : Nat) : Samples := Array.replicate length 0

/-- Replaces every sample of the window for which the other buffer has a partner. -/
def zipWindow (f : Float32 → Float32 → Float32) (w : Window) (dst src : Samples) : Samples :=
  dst.mapIdx fun i d =>
    if w.covers i then
      match src[i]? with
      | some s => f d s
      | none => d
    else d

def copyWindow (w : Window) (dst src : Samples) : Samples :=
  zipWindow (fun _ s => s) w dst src

/-- Adds the scaled samples of `src` to those of `dst`. -/
def mixWindow (gain : Float32) (w : Window) (dst src : Samples) : Samples :=
  zipWindow (fun d s => d + s * gain) w dst src

/-- Overwrites the first samples; values without a sample are dropped. -/
def fill (dst : Samples) (values : List Float32) : Samples :=
  dst.mapIdx fun i d => values[i]?.getD d

@[simp] theorem size_zipWindow (f : Float32 → Float32 → Float32) (w : Window)
    (dst src : Samples) : (zipWindow f w dst src).size = dst.size := by
  simp [zipWindow]

@[simp] theorem size_silence (length : Nat) : (silence length).size = length := by
  simp [silence]

end Samples

end MixerRouting
