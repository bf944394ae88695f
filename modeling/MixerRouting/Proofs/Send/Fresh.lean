import Mathlib.Data.List.Nodup
import MixerRouting.Channel.Basic

/-!
# Sends and channels as they are made

A send is made with its switch off, and its outputs carry its track and slot in
their identities. The taps of a channel belong to the channel's faders. All
that sends have in common for their whole life follows from this; slots of the
board and buffers play no part in it.
-/
namespace MixerRouting

/-- A mapped list is as long as the list, whatever the board. -/
theorem Building.length_run_mapM {α β : Type} (f : α → Building β) (xs : List α) (board : Board) :
    ((xs.mapM f).run board).1.length = xs.length := by
  induction xs generalizing board with
  | nil => rfl
  | cons x xs ih =>
    rw [List.mapM_cons]
    exact congrArg Nat.succ (ih _)

/-- What a mapped list has at some place was made there, by the function on some board. -/
theorem Building.getElem?_run_mapM {α β : Type} {f : α → Building β} {xs : List α} {board : Board}
    {i : Nat} {y : β} (h : ((xs.mapM f).run board).1[i]? = some y) :
    ∃ x board', xs[i]? = some x ∧ y = ((f x).run board').1 := by
  induction xs generalizing board i with
  | nil => cases h
  | cons x xs ih =>
    rw [List.mapM_cons] at h
    cases i with
    | zero => exact ⟨x, board, rfl, (Option.some.inj h).symm⟩
    | succ i => exact ih h

namespace Send

def Fresh (s : Send) : Prop :=
  ∃ track slot signal settings board, s = ((create track slot signal settings).run board).1

/-- The outputs are different ports, and the send is their owner. -/
structure OwnsOutputs (s : Send) : Prop where
  owner : ∀ p ∈ s.outputs.ports, p.owner = s.owner
  distinct : s.outputs.ports.Nodup

theorem Fresh.isOn {s : Send} (h : s.Fresh) : s.isOn = false := by
  obtain ⟨track, slot, signal, settings, board, rfl⟩ := h
  rw [Send.isOn]
  generalize hs : ((create track slot signal settings).run board).1 = s
  have hoff : s.enabled = s.enabled.switch false := by
    rw [← hs]
    cases signal <;> rfl
  rw [hoff]
  exact s.enabled.isOn_switch false

theorem Fresh.sidechain {s : Send} (h : s.Fresh) : s.sidechain = false := by
  obtain ⟨track, slot, signal, settings, board, rfl⟩ := h
  cases signal <;> rfl

theorem Fresh.ownsOutputs {s : Send} (h : s.Fresh) : s.OwnsOutputs := by
  obtain ⟨track, slot, signal, settings, board, rfl⟩ := h
  cases signal with
  | audio =>
    constructor
    · intro p hp
      rcases List.mem_cons.mp hp with rfl | hp
      · rfl
      · rw [List.mem_singleton.mp hp]
        rfl
    · refine List.nodup_cons.mpr ⟨?_, List.nodup_singleton _⟩
      intro hm
      have hi : (0 : UInt16) = 0 + 1 := congrArg PortId.index (List.mem_singleton.mp hm)
      exact absurd hi (by decide)
  | event =>
    constructor
    · intro p hp
      rw [List.mem_singleton.mp hp]
      rfl
    · exact List.nodup_singleton _

end Send

theorem LiveBundle.owner_of_create {signal : Signal} {owner : Owner} {direction : Direction}
    {label : String} {settings : Settings} {board : Board} {p : PortId}
    (hp : p ∈ ((create signal owner direction label settings).run board).1.ids.ports) :
    p.owner = owner := by
  cases signal with
  | audio =>
    rcases List.mem_cons.mp hp with rfl | hp
    · rfl
    · rw [List.mem_singleton.mp hp]
  | event => rw [List.mem_singleton.mp hp]

namespace Channel

def Fresh (c : Channel) : Prop :=
  ∃ track signal settings board, c = ((create track signal settings).run board).1

/-- No send is the owner of a tap. -/
def TapsApart (c : Channel) : Prop :=
  ∀ p ∈ c.prefader.ids.ports ++ c.fader.ids.ports, ∀ track slot, p.owner ≠ .send track slot

theorem Fresh.sends {c : Channel} (h : c.Fresh) {s : Send} (hs : s ∈ c.sends) : s.Fresh := by
  obtain ⟨track, signal, settings, board, rfl⟩ := h
  have hm : s ∈ (((List.range (min settings.sendSlots Settings.maxSlots)).mapM fun slot =>
      Send.create track (UInt8.ofNat slot) signal settings).run board).1 := hs
  obtain ⟨i, hi⟩ := List.mem_iff_getElem?.mp hm
  obtain ⟨slot, board', -, he⟩ := Building.getElem?_run_mapM hi
  exact ⟨track, _, signal, settings, board', he⟩

theorem Fresh.tapsApart {c : Channel} (h : c.Fresh) : c.TapsApart := by
  obtain ⟨track, signal, settings, board, rfl⟩ := h
  intro p hp track' slot ho
  rcases List.mem_append.mp hp with hp | hp
  · have hown : p.owner = .prefader track := LiveBundle.owner_of_create hp
    cases hown.symm.trans ho
  · have hown : p.owner = .fader track := LiveBundle.owner_of_create hp
    cases hown.symm.trans ho

end Channel

end MixerRouting
