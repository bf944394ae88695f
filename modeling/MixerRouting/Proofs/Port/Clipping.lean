import Mathlib
import MixerRouting.Port.Clip
import MixerRouting.Proofs.Port.Windows

/-!
# Clipped windows

Clipping a window to the shorter one of two buffers leaves the frames that the
window has in both of them, although its end is cut off at the greatest machine
word: no buffer is longer than that. So slicing never fails, and work on the
slices is work frame by frame on what the window covers. Calls that cover no
common frame do not get in the way of each other, whichever buffers they read
and write.
-/
namespace MixerRouting

/-! ### Clipping -/

theorem toNat_min (a b : UInt64) : (min a b).toNat = min a.toNat b.toNat := by
  have hmin : min a b = if a ≤ b then a else b := rfl
  rw [hmin, apply_ite UInt64.toNat, Nat.min_def]
  simp only [UInt64.le_iff_toNat_le]

namespace FrameRange

theorem clip_start (length offset frames : UInt64) :
    (clip length offset frames).start.toNat = min offset.toNat length.toNat :=
  toNat_min offset length

/-- No length is above the greatest word, so it does not matter that the sum stops there. -/
theorem clip_stop (length offset frames : UInt64) :
    (clip length offset frames).stop.toNat =
      min (offset.toNat + frames.toNat) length.toNat := by
  have hlength := length.toNat_lt
  rw [clip, toNat_min, toNat_saturatingAdd, UInt64.size]
  omega

/-- The frames of the range are those that the window has in the buffer. -/
theorem mem_clip_iff (length offset frames : UInt64) (i : Nat) :
    ((clip length offset frames).start.toNat ≤ i ∧ i < (clip length offset frames).stop.toNat) ↔
      (Window.mk offset.toNat frames.toNat).covers i = true ∧ i < length.toNat := by
  rw [clip_start, clip_stop, Window.covers_mk_iff]
  omega

end FrameRange

/-! ### Slices -/

namespace RawSamples

variable {a b : RawSamples} {range : FrameRange}

@[simp] theorem toNat_length (b : RawSamples) : b.length.toNat = b.words.size :=
  UInt64.toNat_ofNatLT

theorem ext_getElem? (h : ∀ i : Nat, a.words[i]? = b.words[i]?) : a = b := by
  obtain ⟨words, _⟩ := a
  obtain ⟨words', _⟩ := b
  obtain rfl : words = words' := Array.ext_getElem? h
  rfl

theorem slice?_eq (b : RawSamples) (hrange : range.start.toNat ≤ range.stop.toNat)
    (hstop : range.stop.toNat ≤ b.words.size) :
    b.slice? range = some (b.words.extract range.start.toNat range.stop.toNat).toList := by
  rw [slice?, if_pos ⟨UInt64.le_iff_toNat_le.mpr hrange, UInt64.le_iff_toNat_le.mpr (by simpa)⟩]

/-- A word of a buffer stands in every slice around it. -/
theorem getElem?_extract_sub (words : Array UInt32) {start stop i : Nat} (hstart : start ≤ i)
    (hstop : i < stop) : (words.extract start stop).toList[i - start]? = words[i]? := by
  rw [Array.getElem?_toList, Array.getElem?_extract, Nat.add_sub_cancel' hstart]
  split
  · rfl
  · rw [Array.getElem?_eq_none (by omega)]

theorem getElem?_write {start : UInt64} {part : List UInt32}
    (hpart : start.toNat + part.length ≤ b.words.size) (i : Nat) :
    (b.write start part).words[i]? =
      if start.toNat ≤ i ∧ i < start.toNat + part.length then part[i - start.toNat]?
      else b.words[i]? := by
  have hmade : (b.write start part).words[i]? = b.words[i]?.map fun word =>
      if start.toNat ≤ i then part[i - start.toNat]?.getD word else word := Array.getElem?_mapIdx
  rw [hmade]
  by_cases hin : start.toNat ≤ i ∧ i < start.toNat + part.length
  · rw [if_pos hin, Array.getElem?_eq_getElem (by omega), List.getElem?_eq_getElem (by omega),
      Option.map_some, if_pos hin.1, Option.getD_some]
  · have hkept : ∀ word,
        (if start.toNat ≤ i then part[i - start.toNat]?.getD word else word) = word := by
      intro word
      split
      · rw [List.getElem?_eq_none (by omega), Option.getD_none]
      · rfl
    simp only [if_neg hin, hkept, Option.map_id_fun', id_eq]

end RawSamples

namespace WindowWork

/-- What becomes of a word whose partner may be missing. -/
def meet (f : UInt32 → UInt32 → UInt32) (partner : Option UInt32) (word : UInt32) : UInt32 :=
  (partner.map (f word)).getD word

theorem getElem?_pairwise (f : UInt32 → UInt32 → UInt32) (targets sources : List UInt32) (k : Nat) :
    (pairwise f targets sources)[k]? = targets[k]?.map (meet f sources[k]?) := by
  induction targets generalizing sources k with
  | nil => cases sources <;> rfl
  | cons target targets ih =>
    cases sources with
    | nil => exact Option.map_id_apply.symm
    | cons source sources =>
      cases k with
      | zero => rfl
      | succ k => exact ih sources k

theorem length_pairwise (f : UInt32 → UInt32 → UInt32) (targets sources : List UInt32) :
    (pairwise f targets sources).length = targets.length := by
  induction targets generalizing sources with
  | nil => cases sources <;> rfl
  | cons target targets ih =>
    cases sources with
    | nil => rfl
    | cons source sources => exact congrArg (· + 1) (ih sources)

/-- Slices of the same length are worked on to the end. -/
theorem exists_slices? (work : WindowWork) {targets sources : List UInt32}
    (hlength : targets.length = sources.length) :
    ∃ part, work.slices? targets sources = some part ∧ part.length = targets.length ∧
      ∀ k : Nat, part[k]? = targets[k]?.map (meet work.word sources[k]?) := by
  cases work with
  | copy =>
    refine ⟨sources, if_pos hlength, hlength.symm, fun k => ?_⟩
    by_cases hk : k < targets.length
    · rw [List.getElem?_eq_getElem hk, List.getElem?_eq_getElem (hlength ▸ hk)]
      rfl
    · rw [List.getElem?_eq_none (Nat.le_of_not_lt hk), List.getElem?_eq_none (by omega)]
      rfl
  | mix gain => exact ⟨_, rfl, length_pairwise _ _ _, getElem?_pairwise _ targets sources⟩

/-- The work of a window frame by frame. -/
def apply (work : WindowWork) (w : Window) (target source : RawSamples) : RawSamples where
  words := target.words.mapIdx fun i word =>
    if w.covers i then meet work.word source.words[i]? word else word
  addressable := by rw [Array.size_mapIdx]; exact target.addressable

theorem getElem?_apply (work : WindowWork) (w : Window) (target source : RawSamples) (i : Nat) :
    (work.apply w target source).words[i]? = target.words[i]?.map fun word =>
      if w.covers i then meet work.word source.words[i]? word else word :=
  Array.getElem?_mapIdx

/-- A frame stays as it is if the window does not cover it or one of the buffers has ended. -/
theorem getElem?_apply_of_not (work : WindowWork) {w : Window} {target source : RawSamples}
    {i : Nat} (h : ¬(w.covers i = true ∧ i < min target.words.size source.words.size)) :
    (work.apply w target source).words[i]? = target.words[i]? := by
  rw [getElem?_apply]
  by_cases hcovers : w.covers i = true
  · have hended := not_and.mp h hcovers
    rcases Nat.lt_or_ge i target.words.size with htarget | htarget
    · have hpartner : source.words[i]? = none := Array.getElem?_eq_none (by omega)
      simp only [hcovers, hpartner, if_true]
      exact Option.map_id_apply
    · rw [Array.getElem?_eq_none htarget]
      rfl
  · simp only [if_neg hcovers, Option.map_id_fun', id_eq]

/-- Nothing is out of range: work on the slices is work on what the window covers. -/
theorem run?_eq (work : WindowWork) (target source : RawSamples) (offset frames : UInt64) :
    work.run? target source offset frames =
      some (work.apply ⟨offset.toNat, frames.toNat⟩ target source) := by
  have hlength : (min target.length source.length).toNat =
      min target.words.size source.words.size := by
    rw [toNat_min, RawSamples.toNat_length, RawSamples.toNat_length]
  have hmem := FrameRange.mem_clip_iff (min target.length source.length) offset frames
  have hstart := FrameRange.clip_start (min target.length source.length) offset frames
  have hstop := FrameRange.clip_stop (min target.length source.length) offset frames
  rw [hlength] at hmem hstart hstop
  unfold run?
  generalize FrameRange.clip (min target.length source.length) offset frames = range at *
  dsimp only
  have hrange : range.start.toNat ≤ range.stop.toNat := by omega
  have hlengths : (target.words.extract range.start.toNat range.stop.toNat).toList.length =
      (source.words.extract range.start.toNat range.stop.toNat).toList.length := by
    simp only [Array.length_toList, Array.size_extract]
    omega
  have htargets := target.slice?_eq hrange (by omega)
  have hsources := source.slice?_eq hrange (by omega)
  obtain ⟨part, hpart, hsize, hword⟩ := work.exists_slices? hlengths
  simp only [Array.length_toList, Array.size_extract] at hsize
  rw [htargets, hsources]
  simp only [bind, Option.bind_some, hpart, pure, Option.some.injEq]
  refine RawSamples.ext_getElem? fun i => ?_
  rw [RawSamples.getElem?_write (by omega)]
  by_cases hin : range.start.toNat ≤ i ∧ i < range.stop.toNat
  · obtain ⟨hcovers, -⟩ := (hmem i).mp hin
    rw [if_pos (by omega), hword, RawSamples.getElem?_extract_sub _ hin.1 hin.2,
      RawSamples.getElem?_extract_sub _ hin.1 hin.2, getElem?_apply]
    simp only [hcovers, if_true]
  · rw [if_neg (by omega), getElem?_apply_of_not _ (mt (hmem i).mpr hin)]

theorem samples_apply {work : WindowWork} {f : Float32 → Float32 → Float32}
    (h : ∀ t s, Float32.ofBits (work.word t s) = f (Float32.ofBits t) (Float32.ofBits s))
    (w : Window) (target source : RawSamples) :
    (work.apply w target source).samples = Samples.zipWindow f w target.samples source.samples := by
  refine Array.ext_getElem? fun i => ?_
  simp only [RawSamples.samples, Samples.zipWindow, Array.getElem?_map, Array.getElem?_mapIdx,
    getElem?_apply, Option.map_map]
  refine congrArg (Option.map · target.words[i]?) (funext fun word => ?_)
  simp only [Function.comp_apply]
  cases w.covers i with
  | false => rfl
  | true =>
    cases source.words[i]? with
    | none => rfl
    | some partner => exact h word partner

/-- The same work on samples. -/
def onSamples : WindowWork → Window → Samples → Samples → Samples
  | .copy => Samples.copyWindow
  | .mix gain => Samples.mixWindow gain

/-- On the numbers that the words stand for, the work in memory is the work on samples. -/
theorem run?_samples (work : WindowWork) (target source : RawSamples) (offset frames : UInt64) :
    (work.run? target source offset frames).map RawSamples.samples =
      some (work.onSamples ⟨offset.toNat, frames.toNat⟩ target.samples source.samples) := by
  have hcopied : ∀ t s, Float32.ofBits (copy.word t s) = Float32.ofBits s := fun _ _ => rfl
  have hmixed : ∀ gain t s, Float32.ofBits ((mix gain).word t s) =
      Float32.ofBits t + Float32.ofBits s * gain := fun _ _ _ => Float32.ofBits_toBits _
  rw [run?_eq, Option.map_some]
  cases work with
  | copy => exact congrArg some (samples_apply (f := fun _ s => s) hcopied _ target source)
  | mix gain =>
    exact congrArg some (samples_apply (f := fun d s => d + s * gain) (hmixed gain) _ target source)

end WindowWork

/-! ### Calls between several buffers -/

namespace WindowCall

variable {ι : Type} [DecidableEq ι] {call other : WindowCall ι} {buffers buffers' : ι → RawSamples}
  {i : Nat}

def window (call : WindowCall ι) : Window := ⟨call.offset.toNat, call.frames.toNat⟩

/-- The buffers after the work, which never fails. -/
def apply (call : WindowCall ι) (buffers : ι → RawSamples) (b : ι) : RawSamples :=
  if b = call.target then
    call.work.apply call.window (buffers call.target) (buffers call.source)
  else buffers b

theorem run?_eq (call : WindowCall ι) (buffers : ι → RawSamples) :
    call.run? buffers = some (call.apply buffers) := by
  rw [run?, WindowWork.run?_eq]
  rfl

theorem apply_target (call : WindowCall ι) (buffers : ι → RawSamples) :
    call.apply buffers call.target =
      call.work.apply call.window (buffers call.target) (buffers call.source) :=
  if_pos rfl

theorem apply_of_ne {b : ι} (h : b ≠ call.target) : call.apply buffers b = buffers b := if_neg h

/-- What all buffers have at one frame. -/
def column (buffers : ι → RawSamples) (i : Nat) (b : ι) : Option UInt32 := (buffers b).words[i]?

omit [DecidableEq ι] in
theorem ext_column (h : ∀ i, column buffers i = column buffers' i) : buffers = buffers' :=
  funext fun b => RawSamples.ext_getElem? fun i => congrFun (h i) b

/-- Calls leave frames alone that their windows do not cover. -/
theorem column_apply_of_not_covers (h : call.window.covers i = false) :
    column (call.apply buffers) i = column buffers i := by
  funext b
  by_cases hb : b = call.target
  · subst hb
    rw [column, apply_target, WindowWork.getElem?_apply_of_not _ (by simp [h])]
    rfl
  · rw [column, apply_of_ne hb]
    rfl

/-- What a call does at a frame depends on that frame only. -/
theorem column_apply_congr (h : column buffers i = column buffers' i) :
    column (call.apply buffers) i = column (call.apply buffers') i := by
  have hword : ∀ b, (buffers b).words[i]? = (buffers' b).words[i]? := congrFun h
  funext b
  by_cases hb : b = call.target
  · subst hb
    simp only [column, apply_target, WindowWork.getElem?_apply, hword]
  · simp only [column, apply_of_ne hb, hword]

/-- At every frame one of two calls with windows apart does nothing. -/
theorem apply_comm (h : call.window.Apart other.window) (buffers : ι → RawSamples) :
    other.apply (call.apply buffers) = call.apply (other.apply buffers) := by
  refine ext_column fun i => ?_
  cases hcovers : call.window.covers i with
  | true =>
    have hother := h i hcovers
    rw [column_apply_of_not_covers hother]
    exact column_apply_congr (column_apply_of_not_covers hother).symm
  | false =>
    rw [column_apply_of_not_covers hcovers]
    exact column_apply_congr (column_apply_of_not_covers hcovers)

/-- What was copied is there already when it is copied again. -/
theorem apply_copy_twice (h : call.work = .copy) (buffers : ι → RawSamples) :
    call.apply (call.apply buffers) = call.apply buffers := by
  have hagain : ∀ partner word, WindowWork.meet WindowWork.copy.word partner
      (WindowWork.meet WindowWork.copy.word partner word) =
        WindowWork.meet WindowWork.copy.word partner word := by
    intro partner word
    cases partner <;> rfl
  refine ext_column fun i => funext fun b => ?_
  by_cases hb : b = call.target
  · subst hb
    simp only [column, apply_target, WindowWork.getElem?_apply, apply_of_ne call.distinct.symm,
      Option.map_map, h]
    cases call.window.covers i with
    | true => simp only [Function.comp_def, hagain, if_true]
    | false => simp only [Function.comp_def, Bool.false_eq_true, if_false]
  · simp only [column, apply_of_ne hb]

theorem size_apply (call : WindowCall ι) (buffers : ι → RawSamples) (b : ι) :
    (call.apply buffers b).words.size = (buffers b).words.size := by
  by_cases hb : b = call.target
  · subst hb
    rw [apply_target, WindowWork.apply, Array.size_mapIdx]
  · rw [apply_of_ne hb]

/-- For any buffers, any offset and any number of frames: a call succeeds, keeps all lengths, and
works on those frames of its target, and on no others, that lie in both buffers and in the window,
whose end is the exact sum. Calls of which the windows have no frame in common can change places,
and copying once more changes nothing. -/
theorem runs_in_window (call : WindowCall ι) (buffers : ι → RawSamples) :
    ∃ after, call.run? buffers = some after ∧
      (∀ b, (after b).words.size = (buffers b).words.size) ∧
      (∀ (i : Nat) (htarget : i < (buffers call.target).words.size)
        (hsource : i < (buffers call.source).words.size), call.offset.toNat ≤ i →
          i < call.offset.toNat + call.frames.toNat → (after call.target).words[i]? =
            some (call.work.word (buffers call.target).words[i] (buffers call.source).words[i])) ∧
      (∀ (b : ι) (i : Nat), ¬(b = call.target ∧
          i < min (buffers call.target).words.size (buffers call.source).words.size ∧
          call.offset.toNat ≤ i ∧ i < call.offset.toNat + call.frames.toNat) →
        (after b).words[i]? = (buffers b).words[i]?) ∧
      (∀ other : WindowCall ι, call.window.Apart other.window →
        (call.run? buffers).bind other.run? = (other.run? buffers).bind call.run?) ∧
      (call.work = .copy → call.run? after = some after) := by
  refine ⟨call.apply buffers, call.run?_eq buffers, call.size_apply buffers, ?_, ?_, ?_, ?_⟩
  · intro i htarget hsource hfirst hlast
    have hcovers : call.window.covers i = true := (Window.covers_mk_iff _ _ _).mpr ⟨hfirst, hlast⟩
    rw [apply_target, WindowWork.getElem?_apply, Array.getElem?_eq_getElem htarget,
      Array.getElem?_eq_getElem hsource, Option.map_some, if_pos hcovers]
    rfl
  · intro b i houtside
    by_cases hb : b = call.target
    · subst hb
      rw [apply_target]
      refine WindowWork.getElem?_apply_of_not _ fun hin => houtside ⟨rfl, hin.2, ?_⟩
      exact (Window.covers_mk_iff _ _ _).mp hin.1
    · rw [apply_of_ne hb]
  · intro other hapart
    rw [run?_eq, run?_eq, Option.bind_some, Option.bind_some, run?_eq, run?_eq,
      apply_comm hapart]
  · intro hcopy
    rw [run?_eq, apply_copy_twice hcopy]

/-- A mix from a buffer of three samples into one of four, from the second frame on and for as many
frames as a machine word can say, and a copy of the first frame the other way. -/
theorem runs_in_window_past_limit :
    let buffers : Bool → RawSamples := fun b =>
      if b then ⟨#[0x3f800000, 0x40000000, 0x40400000], by decide⟩
      else ⟨#[0x80000000, 0, 0x3f800000, 0x7fc00001], by decide⟩
    let mix : WindowCall Bool :=
      ⟨.mix (Float32.ofBits 0x3f000000), false, true, by decide, 1, 0xffffffffffffffff⟩
    let copy : WindowCall Bool := ⟨.copy, true, false, by decide, 0, 1⟩
    mix.window.Apart copy.window ∧
      (∃ after, mix.run? buffers = some after ∧ (after false).words.size = 4 ∧
        (after false).words[2]? = some 0x40200000 ∧ (after false).words[3]? = some 0x7fc00001) ∧
      (mix.run? buffers).bind copy.run? = (copy.run? buffers).bind mix.run? ∧
      ∃ after, copy.run? buffers = some after ∧ copy.run? after = some after := by
  intro buffers mix copy
  have hapart : mix.window.Apart copy.window := by
    intro i hi
    have hfirst : 1 ≤ i := ((Window.covers_mk_iff 1 _ i).mp hi).1
    exact (Window.covers_mk_eq_false_iff 0 1 i).mpr (.inr hfirst)
  obtain ⟨after, hafter, hsize, hwithin, houtside, hcomm, -⟩ := mix.runs_in_window buffers
  obtain ⟨copied, hcopied, -, -, -, -, hagain⟩ := copy.runs_in_window buffers
  refine ⟨hapart, ⟨after, hafter, hsize false, ?_, ?_⟩, hcomm copy hapart, copied, hcopied,
    hagain rfl⟩
  · exact (hwithin 2 (by decide) (by decide) (by decide) (by decide)).trans (by decide +kernel)
  · exact houtside false 3 (by decide)

end WindowCall

end MixerRouting
