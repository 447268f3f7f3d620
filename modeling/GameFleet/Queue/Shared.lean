import GameFleet.Queue.Basic
import GameFleet.Queue.Bell

/-!
# Queues that tasks wait at

A `SharedQueue` is a work queue with the bell at which its workers wait. An attempt to
get a key (`SharedQueue.attempt`) ends with a key, with nothing because the queue is
down, or with the task waiting at the bell; when it is called it tries again. A task
that takes a key and leaves others in line rings for the next task.

The operations return the tasks that they call.
-/

namespace GameFleet

structure SharedQueue (κ : Type) [Ordered κ] where
  queue : WorkQueue κ
  bell : Bell

/-- What an attempt to get a key comes to. -/
inductive Attempt (κ : Type) where
  | got (key : κ)
  /-- The queue is down. -/
  | closed
  /-- The task waits. -/
  | blocked
  deriving DecidableEq, Repr

namespace SharedQueue

variable {κ : Type} [Ordered κ]

def new : SharedQueue κ := ⟨.empty, .new⟩

/-- Rings if there is reason to. -/
def ringIf (reason : Bool) (s : SharedQueue κ) : List Nat × SharedQueue κ :=
  if reason then
    let (called, bell) := s.bell.ring
    (called.toList, { s with bell })
  else ([], s)

def add (s : SharedQueue κ) (k : κ) : List Nat × SharedQueue κ :=
  let (queue, ring) := s.queue.add k
  ringIf ring { s with queue }

def done (s : SharedQueue κ) (k : κ) : List Nat × SharedQueue κ :=
  let (queue, ring) := s.queue.done k
  ringIf ring { s with queue }

def shutDown (s : SharedQueue κ) : List Nat × SharedQueue κ :=
  let (called, bell) := s.bell.ringAll
  (called, { queue := s.queue.shutDown, bell })

/-- An attempt of a task to get a key. The task comes to the bell first, so that no ring
is missed while it looks. -/
def attempt (s : SharedQueue κ) (task : Nat) : Attempt κ × List Nat × SharedQueue κ :=
  let (spared, bell) := s.bell.arrive task
  let s := { s with bell }
  if s.queue.down then
    let (called, bell) := bell.leave task
    (.closed, called.toList, { s with bell })
  else
    match s.queue.take? with
    | some (k, queue) =>
      let (_, bell) := bell.leave task
      let (called, s) := ringIf (!queue.waiting.isEmpty) { queue, bell }
      (.got k, called, s)
    | none =>
      let bell := if spared then (bell.arrive task).2 else bell
      (.blocked, [], { s with bell })

/-- A task that was called tries again. -/
def retry (s : SharedQueue κ) (task : Nat) : Attempt κ × List Nat × SharedQueue κ :=
  attempt { s with bell := s.bell.answer task } task

/-- A task gives up waiting. -/
def giveUp (s : SharedQueue κ) (task : Nat) : List Nat × SharedQueue κ :=
  let (called, bell) := s.bell.leave task
  (called.toList, { s with bell })

end SharedQueue

end GameFleet
