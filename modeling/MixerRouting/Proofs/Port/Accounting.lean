import Mathlib.Data.List.Perm.Basic
import MixerRouting.Proofs.Port.Queues

/-!
# No event is lost unnoticed

A ledger is kept beside a queue from what the operations answer: which events
were offered, which of them were queued and which refused, what was taken out
by clearing, and how many drops were reported. However the operations follow
each other, the events that were queued are those that were taken out and then
those that are there, and the refused ones are as many as were reported and
then counted.

A window is given by two words, and its end is a sum that may not fit into one.
A pass over the source that ends at the greatest word instead finds the same
events as the exact sum, since no event has a time that late.
-/
namespace MixerRouting

/-! ### Operations and what they answer -/

inductive QueueOperation where
  | push (e : Event)
  | appendWindow (w : Window) (src : EventQueue)
  | clear
  | takeDropped

inductive QueueAnswer where
  /-- Whether the event was queued. -/
  | queued (b : Bool)
  | count (n : Nat)
  | done
  deriving DecidableEq

def QueueAnswer.number : QueueAnswer → Nat
  | .queued b => b.toNat
  | .count n => n
  | .done => 0

namespace QueueOperation

/-- The events that the operation offers, in order. -/
def offered : QueueOperation → List Event
  | .push e => [e]
  | .appendWindow w src => src.within w
  | _ => []

/-- The offered events that were queued, by the answer. -/
def queued (op : QueueOperation) (answer : QueueAnswer) : List Event :=
  op.offered.take answer.number

def refused (op : QueueOperation) (answer : QueueAnswer) : List Event :=
  op.offered.drop answer.number

/-- The drops that the answer reports. -/
def reported : QueueOperation → QueueAnswer → Nat
  | .takeDropped, answer => answer.number
  | _, _ => 0

/-- The events that the operation takes out of a queue. -/
def removed : QueueOperation → EventQueue → List Event
  | .clear, q => q.events
  | _, _ => []

theorem queued_append_refused (op : QueueOperation) (answer : QueueAnswer) :
    op.queued answer ++ op.refused answer = op.offered :=
  List.take_append_drop _ _

end QueueOperation

namespace EventQueue

def perform (q : EventQueue) : QueueOperation → QueueAnswer × EventQueue
  | .push e => (q.push e).map .queued id
  | .appendWindow w src => (appendWindow w q src).map .count id
  | .clear => (.done, q.clear)
  | .takeDropped => q.takeDropped.map .count id

/-! ### What one operation does -/

/-- The queue after events were offered: the first ones are queued, as many as there is room for. -/
def accept (q : EventQueue) (offered : List Event) : EventQueue :=
  { q with
    events := q.events ++ offered.take q.room
    dropped := q.dropped + (offered.length - q.room) }

/-- Offers events in order; answers how many were queued. -/
def offer (q : EventQueue) (offered : List Event) : Nat × EventQueue :=
  ((q.pushAll offered).1.count true, (q.pushAll offered).2)

theorem offer_eq (q : EventQueue) (offered : List Event) :
    q.offer offered = (min q.room offered.length, q.accept offered) := by
  rw [offer, pushAll_eq, List.count_append, List.count_replicate_self, List.count_replicate]
  rfl

theorem offer_cons (q : EventQueue) (e : Event) (rest : List Event) :
    q.offer (e :: rest) =
      ((q.push e).1.toNat + ((q.push e).2.offer rest).1, ((q.push e).2.offer rest).2) := by
  refine Prod.ext ?_ rfl
  show ((q.push e).1 :: ((q.push e).2.pushAll rest).1).count true = _
  rw [List.count_cons, Nat.add_comm]
  cases (q.push e).1 <;> rfl

theorem appendWindow_eq_offer (w : Window) (q src : EventQueue) :
    appendWindow w q src = q.offer (src.within w) := rfl

theorem push_eq (q : EventQueue) (e : Event) : q.push e = (decide (0 < q.room), q.accept [e]) := by
  have hqueue : (q.offer [e]).2 = q.accept [e] := congrArg Prod.snd (q.offer_eq [e])
  refine Prod.ext ?_ hqueue
  unfold push room
  by_cases h : q.length < q.capacity
  · rw [if_pos h, decide_eq_true (Nat.sub_pos_of_lt h)]
  · rw [if_neg h, decide_eq_false (by omega)]

/-- What an operation did to a queue, in terms of its answer. -/
structure Performed (q : EventQueue) (op : QueueOperation) (answer : QueueAnswer)
    (after : EventQueue) : Prop where
  capacity : after.capacity = q.capacity
  bounded : q.Bounded → after.Bounded
  kept : q.events ++ op.queued answer = op.removed q ++ after.events
  counted : q.dropped + (op.refused answer).length = op.reported answer + after.dropped

/-- Events that are offered are queued from the first one on, and the answer tells how many. -/
theorem performed_accept (q : EventQueue) (op : QueueOperation) {answer : QueueAnswer}
    (hanswer : answer.number = min q.room op.offered.length) (hremoved : op.removed q = [])
    (hreported : op.reported answer = 0) : q.Performed op answer (q.accept op.offered) := by
  constructor
  case capacity => rfl
  case bounded =>
    intro h
    have hbounded := bounded_pushAll h op.offered
    rw [pushAll_eq] at hbounded
    exact hbounded
  case kept =>
    have htaken : op.offered.take (min q.room op.offered.length) = op.offered.take q.room := by
      rw [List.take_eq_take_iff, Nat.min_assoc, Nat.min_self]
    rw [hremoved, List.nil_append, QueueOperation.queued, hanswer, htaken]
    rfl
  case counted =>
    have hleft : op.offered.length - min q.room op.offered.length =
        op.offered.length - q.room := by omega
    rw [hreported, Nat.zero_add, QueueOperation.refused, hanswer, List.length_drop, hleft]
    rfl

theorem performed_perform (q : EventQueue) (op : QueueOperation) :
    q.Performed op (q.perform op).1 (q.perform op).2 := by
  cases op with
  | push e =>
    rw [perform, push_eq]
    refine performed_accept q (.push e) ?_ rfl rfl
    show (decide (0 < q.room)).toNat = min q.room 1
    by_cases h : 0 < q.room
    · rw [decide_eq_true h, Nat.min_eq_right h]
      rfl
    · rw [decide_eq_false h, Nat.eq_zero_of_not_pos h]
      rfl
  | appendWindow w src =>
    rw [perform, appendWindow_eq_offer, offer_eq]
    exact performed_accept q (.appendWindow w src) rfl rfl rfl
  | clear => exact ⟨rfl, fun _ => q.bounded_clear, rfl, (Nat.zero_add _).symm⟩
  | takeDropped =>
    constructor
    case capacity => rfl
    case bounded => exact id
    case kept => exact (congrArg _ List.take_nil).trans (List.append_nil _)
    case counted => exact congrArg (q.dropped + List.length ·) List.drop_nil

end EventQueue

/-! ### Ledgers -/

/-- What became of all events that were offered to a queue, oldest first. -/
structure QueueLedger where
  offered : List Event := []
  queued : List Event := []
  refused : List Event := []
  /-- Queued events that were taken out by clearing. -/
  removed : List Event := []
  /-- How many drops were reported. -/
  reported : Nat := 0

namespace QueueLedger

/-- Enters an operation on a queue and its answer. -/
def enter (l : QueueLedger) (q : EventQueue) (op : QueueOperation) (answer : QueueAnswer) :
    QueueLedger where
  offered := l.offered ++ op.offered
  queued := l.queued ++ op.queued answer
  refused := l.refused ++ op.refused answer
  removed := l.removed ++ op.removed q
  reported := l.reported + op.reported answer

/-- The ledger accounts for what a queue holds and counts. Every event that was offered is in it
once, queued or refused. -/
structure Balances (l : QueueLedger) (q : EventQueue) : Prop where
  bounded : q.length ≤ q.capacity
  kept : l.queued = l.removed ++ q.events
  counted : l.refused.length = l.reported + q.dropped
  complete : (l.queued ++ l.refused).Perm l.offered
  queuedInOrder : l.queued.Sublist l.offered
  refusedInOrder : l.refused.Sublist l.offered

theorem balances_empty (capacity : Nat) : ({} : QueueLedger).Balances (.empty capacity) :=
  ⟨Nat.zero_le _, rfl, rfl, .nil, .slnil, .slnil⟩

theorem Balances.enter {l : QueueLedger} {q after : EventQueue} (h : l.Balances q)
    {op : QueueOperation} {answer : QueueAnswer} (hop : q.Performed op answer after) :
    (l.enter q op answer).Balances after := by
  have hoffered := op.queued_append_refused answer
  constructor
  case bounded => exact hop.bounded h.bounded
  case kept =>
    calc l.queued ++ op.queued answer
        = l.removed ++ (q.events ++ op.queued answer) := by rw [h.kept, List.append_assoc]
      _ = l.removed ++ op.removed q ++ after.events := by rw [hop.kept, List.append_assoc]
  case counted =>
    have hold := h.counted
    have hnew := hop.counted
    simp only [QueueLedger.enter, List.length_append]
    omega
  case complete =>
    have hsplit : (l.queued ++ op.queued answer ++ (l.refused ++ op.refused answer)).Perm
        (l.queued ++ l.refused ++ (op.queued answer ++ op.refused answer)) := by
      rw [List.append_assoc, List.append_assoc]
      apply List.Perm.append_left
      rw [← List.append_assoc, ← List.append_assoc]
      exact List.perm_append_comm.append_right _
    rw [hoffered] at hsplit
    exact hsplit.trans (h.complete.append_right _)
  case queuedInOrder => exact h.queuedInOrder.append (List.take_sublist _ _)
  case refusedInOrder => exact h.refusedInOrder.append (List.drop_sublist _ _)

end QueueLedger

namespace EventQueue

/-- Performs operations one after the other and keeps a ledger. -/
def run (q : EventQueue) (l : QueueLedger) : List QueueOperation → EventQueue × QueueLedger
  | [] => (q, l)
  | op :: rest =>
    let (answer, after) := q.perform op
    after.run (l.enter q op answer) rest

theorem balances_run {q : EventQueue} {l : QueueLedger} (h : l.Balances q)
    (ops : List QueueOperation) :
    (q.run l ops).1.capacity = q.capacity ∧ (q.run l ops).2.Balances (q.run l ops).1 := by
  induction ops generalizing q l with
  | nil => exact ⟨rfl, h⟩
  | cons op rest ih =>
    have hop := q.performed_perform op
    obtain ⟨hcapacity, hbalances⟩ := ih (h.enter hop)
    exact ⟨hcapacity.trans hop.capacity, hbalances⟩

theorem offered_run (q : EventQueue) (l : QueueLedger) (ops : List QueueOperation) :
    (q.run l ops).2.offered = l.offered ++ ops.flatMap QueueOperation.offered := by
  induction ops generalizing q l with
  | nil => exact (List.append_nil _).symm
  | cons op rest ih => exact (ih _ _).trans (List.append_assoc _ _ _)

/-! ### Windows given by words -/

/-- Times have half the bits of a word, so a sum that does not fit is after all of them. -/
theorem between_iff_covers (offset frames : UInt64) (time : UInt32) :
    (offset ≤ time.toUInt64 ∧ time.toUInt64 < saturatingAdd offset frames) ↔
      (Window.mk offset.toNat frames.toNat).covers time.toNat = true := by
  have htime : time.toNat < UInt64.size - 1 := Nat.lt_trans time.toNat_lt (by decide)
  rw [UInt64.le_iff_toNat_le, UInt64.lt_iff_toNat_lt, toNat_saturatingAdd, UInt32.toNat_toUInt64,
    Window.covers_iff, Nat.lt_min, and_iff_left htime]
  exact Iff.rfl

theorem appendBetween_eq (offset frames : UInt64) (q src : EventQueue) :
    appendBetween offset (saturatingAdd offset frames) q src.events =
      appendWindow ⟨offset.toNat, frames.toNat⟩ q src := by
  rw [appendWindow_eq_offer, within]
  induction src.events generalizing q with
  | nil => rfl
  | cons e rest ih =>
    rw [List.filter_cons, appendBetween]
    by_cases he : (Window.mk offset.toNat frames.toNat).covers e.time.toNat = true
    · rw [if_pos he, if_pos ((between_iff_covers offset frames e.time).mpr he), offer_cons, ← ih]
    · rw [if_neg he, if_neg fun h => he ((between_iff_covers offset frames e.time).mp h), ih]

theorem appendWindow_eq (w : Window) (q src : EventQueue) :
    appendWindow w q src =
      (min (src.within w).length q.room,
        { q with
          events := q.events ++ (src.within w).take (min (src.within w).length q.room)
          dropped :=
            q.dropped + ((src.within w).length - min (src.within w).length q.room) }) := by
  have htaken : (src.within w).take q.room =
      (src.within w).take (min (src.within w).length q.room) := by
    rw [List.take_eq_take_iff]
    omega
  have hleft : (src.within w).length - q.room =
      (src.within w).length - min (src.within w).length q.room := by omega
  rw [appendWindow_eq_offer, offer_eq, accept, htaken, hleft, Nat.min_comm]

/-- Whatever is done to a queue that starts out empty, its ledger has all events that were
offered and balances. A window offers the events of its source with a time in it, read off in one
pass or picked out first: as many as there is room for are appended, and the others are
counted. -/
theorem accounts_for_all (capacity : Nat) (ops : List QueueOperation) :
    ((empty capacity).run {} ops).1.capacity = capacity ∧
      ((empty capacity).run {} ops).2.offered = ops.flatMap QueueOperation.offered ∧
      ((empty capacity).run {} ops).2.Balances ((empty capacity).run {} ops).1 ∧
      ∀ (offset frames : UInt64) (q src : EventQueue),
        let offered := src.events.filter fun e =>
          offset.toNat ≤ e.time.toNat ∧ e.time.toNat < offset.toNat + frames.toNat
        let taken := min offered.length (q.capacity - q.length)
        let result : Nat × EventQueue :=
          (taken, { q with
            events := q.events ++ offered.take taken
            dropped := q.dropped + (offered.length - taken) })
        appendWindow ⟨offset.toNat, frames.toNat⟩ q src = result ∧
          appendBetween offset (saturatingAdd offset frames) q src.events = result := by
  obtain ⟨hcapacity, hbalances⟩ := balances_run (QueueLedger.balances_empty capacity) ops
  refine ⟨hcapacity, offered_run _ _ _, hbalances, ?_⟩
  intro offset frames q src offered taken result
  have hoffered : src.within ⟨offset.toNat, frames.toNat⟩ = offered := by
    refine List.filter_congr fun e _ => Bool.eq_iff_iff.mpr ?_
    rw [Window.covers_iff, decide_eq_true_iff]
    exact Iff.rfl
  have hwindow : appendWindow ⟨offset.toNat, frames.toNat⟩ q src = result := by
    rw [appendWindow_eq, hoffered]
    rfl
  exact ⟨hwindow, (appendBetween_eq offset frames q src).trans hwindow⟩

end EventQueue

end MixerRouting
