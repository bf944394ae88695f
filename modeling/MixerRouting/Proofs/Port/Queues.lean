import Mathlib.Data.List.Basic
import MixerRouting.Port.EventQueue

/-!
# What a queue takes

Events that are offered to a queue one after the other are queued from the first
one on as long as there is room; the others are dropped and counted. One
equation says so for any list of events, and nothing here opens a queue again
after it. A queue into which all events fit is the case that rendering needs.
-/
namespace MixerRouting.EventQueue

/-- How many more events the queue takes. -/
def room (q : EventQueue) : Nat := q.capacity - q.length

/-- The queue holds no more events than its capacity. -/
def Bounded (q : EventQueue) : Prop := q.length ≤ q.capacity

theorem pushAll_eq (q : EventQueue) (offered : List Event) :
    q.pushAll offered =
      (List.replicate (min q.room offered.length) true ++
          List.replicate (offered.length - q.room) false,
        { q with
          events := q.events ++ offered.take q.room
          dropped := q.dropped + (offered.length - q.room) }) := by
  induction offered generalizing q with
  | nil => simp [pushAll]
  | cons e rest ih =>
    by_cases hroom : q.length < q.capacity
    · have hpush : q.push e = (true, { q with events := q.events ++ [e] }) := if_pos hroom
      obtain ⟨n, hn⟩ : ∃ n, q.room = n + 1 := ⟨q.capacity - q.length - 1, by unfold room; omega⟩
      have hleft : ({ q with events := q.events ++ [e] } : EventQueue).room = n := by
        have hlength : ({ q with events := q.events ++ [e] } : EventQueue).length = q.length + 1 :=
          List.length_append
        unfold room at hn ⊢
        simp only [hlength]
        omega
      have hmin : min (n + 1) (rest.length + 1) = min n rest.length + 1 := by omega
      have hover : rest.length + 1 - (n + 1) = rest.length - n := by omega
      simp only [pushAll, hpush, ih, hleft, hn, List.length_cons, hmin, hover,
        List.replicate_succ, List.take_succ_cons, List.append_assoc, List.cons_append,
        List.nil_append]
    · have hpush : q.push e = (false, { q with dropped := q.dropped + 1 }) := if_neg hroom
      have hfull : q.room = 0 := by
        unfold room
        omega
      have hleft : ({ q with dropped := q.dropped + 1 } : EventQueue).room = 0 := hfull
      have hcount : q.dropped + 1 + rest.length = q.dropped + (rest.length + 1) := by omega
      simp only [pushAll, hpush, ih, hleft, hfull, List.length_cons, Nat.zero_min, Nat.sub_zero,
        List.replicate_zero, List.replicate_succ, List.nil_append, List.take_zero,
        List.append_nil, hcount]

theorem bounded_pushAll {q : EventQueue} (h : q.Bounded) (offered : List Event) :
    (q.pushAll offered).2.Bounded := by
  have htaken : (q.events ++ offered.take q.room).length ≤ q.capacity := by
    unfold Bounded length at h
    simp only [room, length, List.length_append, List.length_take]
    omega
  rw [pushAll_eq]
  exact htaken

theorem bounded_clear (q : EventQueue) : q.clear.Bounded := Nat.zero_le _

/-- Where all events of the window fit, they are appended and none is dropped. -/
theorem appendWindow_of_room {w : Window} {q src : EventQueue}
    (h : q.length + (src.within w).length ≤ q.capacity) :
    (appendWindow w q src).2 = { q with events := q.events ++ src.within w } := by
  have hroom : (src.within w).length ≤ q.room := by
    unfold room
    omega
  have hnone : (src.within w).length - q.room = 0 := by omega
  simp only [appendWindow, pushAll_eq, hnone, Nat.add_zero, List.take_of_length_le hroom]

end MixerRouting.EventQueue
