import GameFleet.Backoff
import GameFleet.Queue.Shared
import GameFleet.Schedule

/-!
# Delayed adds

A key can be added to a queue after a delay, or after the delay that its failures call
for. A task of its own, the sleeper, sees to that: when it first runs it sets an alarm,
and when the alarm is due it adds the key.

The functions here are the operations of a queue in virtual time. They make the tasks
ready that the operation calls.
-/

namespace GameFleet

/-- Tasks of a system around a queue of keys `κ`, with others `α` of its own. -/
inductive QueueTask (κ α : Type) where
  /-- A task that waited at the bell was called. -/
  | called (task : Nat)
  /-- A sleeper that has not set its alarm. -/
  | sleeper (key : κ) (delay : Nat)
  /-- A sleeper whose alarm is due. -/
  | due (key : κ)
  | own (a : α)
  deriving DecidableEq, Repr

/-- A queue in virtual time. -/
structure TimedQueue (κ α : Type) [Ordered κ] where
  shared : SharedQueue κ
  schedule : Schedule (QueueTask κ α)
  backoff : Backoff

namespace TimedQueue

variable {κ α : Type} [Ordered κ]

def new (backoff : Backoff) : TimedQueue κ α := ⟨.new, .new, backoff⟩

def queue (q : TimedQueue κ α) : WorkQueue κ := q.shared.queue

/-- The queue after an operation that called some tasks. -/
def after (q : TimedQueue κ α) : List Nat × SharedQueue κ → TimedQueue κ α
  | (called, shared) =>
    { q with shared, schedule := q.schedule.spawnAll (called.map .called) }

def add (q : TimedQueue κ α) (k : κ) : TimedQueue κ α := q.after (q.shared.add k)

/-- Adds a key after a delay. -/
def addAfter (q : TimedQueue κ α) (k : κ) (delay : Nat) : TimedQueue κ α :=
  if q.queue.down then q
  else if delay = 0 then q.add k
  else { q with schedule := q.schedule.spawn (.sleeper k delay) }

/-- Puts a key off and adds it after the delay that its failures before this one call
for. -/
def addRateLimited (q : TimedQueue κ α) (k : κ) : TimedQueue κ α :=
  let failures := q.queue.requeues k
  addAfter { q with shared := { q.shared with queue := q.queue.countFailure k } } k
    (q.backoff.steady failures.toNat)

def forget (q : TimedQueue κ α) (k : κ) : TimedQueue κ α :=
  { q with shared := { q.shared with queue := q.queue.forget k } }

def done (q : TimedQueue κ α) (k : κ) : TimedQueue κ α := q.after (q.shared.done k)

def shutDown (q : TimedQueue κ α) : TimedQueue κ α := q.after q.shared.shutDown

/-- A task tries to get a key. -/
def attempt (q : TimedQueue κ α) (task : Nat) : Attempt κ × TimedQueue κ α :=
  let (result, after) := q.shared.retry task
  (result, q.after after)

/-- A task gives up waiting for a key. -/
def giveUp (q : TimedQueue κ α) (task : Nat) : TimedQueue κ α := q.after (q.shared.giveUp task)

/-- A sleeper's first turn. -/
def setAlarm (q : TimedQueue κ α) (k : κ) (delay : Nat) : TimedQueue κ α :=
  { q with schedule := q.schedule.sleep delay (.due k) }

end TimedQueue

end GameFleet
