import MixerRouting.Port.Samples

/-!
# Bounded event queues

A queue holds short messages with a frame number each, in the order of their
arrival. Its capacity is fixed. A message that finds the queue full is
dropped and counted, so every message offered is either queued or counted.
-/
namespace MixerRouting

/-- A short message, stamped with its frame in the cycle. -/
structure Event where
  time : UInt32
  status : UInt8
  data1 : UInt8
  data2 : UInt8
  deriving DecidableEq, Repr

structure EventQueue where
  events : List Event
  capacity : Nat
  dropped : Nat
  deriving DecidableEq, Repr

namespace EventQueue

def empty (capacity : Nat) : EventQueue := ⟨[], capacity, 0⟩

def length (q : EventQueue) : Nat := q.events.length

def isEmpty (q : EventQueue) : Bool := q.events.isEmpty

/-- Offers one event; answers whether it was queued. -/
def push (q : EventQueue) (e : Event) : Bool × EventQueue :=
  if q.length < q.capacity then (true, { q with events := q.events ++ [e] })
  else (false, { q with dropped := q.dropped + 1 })

/-- Offers events in order; answers which of them were queued. -/
def pushAll (q : EventQueue) : List Event → List Bool × EventQueue
  | [] => ([], q)
  | e :: rest =>
    let (queued, q) := q.push e
    let (others, q) := q.pushAll rest
    (queued :: others, q)

/-- The events of the queue whose time lies in the window. -/
def within (q : EventQueue) (w : Window) : List Event :=
  q.events.filter fun e => w.covers e.time.toNat

/-- Offers the events of another queue that lie in the window, with their times; answers how many
were queued. -/
def appendWindow (w : Window) (q src : EventQueue) : Nat × EventQueue :=
  let (queued, q) := q.pushAll (src.within w)
  (queued.count true, q)

/-- One pass over the events of a source: each that is not before `start` and before `stop` is
offered at once. Answers how many were queued. -/
def appendBetween (start stop : UInt64) (q : EventQueue) : List Event → Nat × EventQueue
  | [] => (0, q)
  | e :: rest =>
    if start ≤ e.time.toUInt64 ∧ e.time.toUInt64 < stop then
      let (queued, q) := q.push e
      let (count, q) := appendBetween start stop q rest
      (queued.toNat + count, q)
    else appendBetween start stop q rest

/-- Removes all events; the count of dropped ones stays. -/
def clear (q : EventQueue) : EventQueue := { q with events := [] }

def takeDropped (q : EventQueue) : Nat × EventQueue := (q.dropped, { q with dropped := 0 })

@[simp] theorem clear_events (q : EventQueue) : q.clear.events = [] := rfl
@[simp] theorem clear_dropped (q : EventQueue) : q.clear.dropped = q.dropped := rfl

end EventQueue

end MixerRouting
