import GameFleet.Table

/-!
# Work queues

A `WorkQueue` holds the keys that need work. A key is dirty from when it is added to
when it is handed out, and processing from then to when the worker is done with it.
Dirty keys wait in line, each once, except those that are processing: they get in line
again when the worker is done. So no key is with two workers at once, and no key that
was added is forgotten.

A change that lets a worker go on rings the queue's bell; `add` and `done` say whether
it does.
-/

namespace GameFleet

structure WorkQueue (κ : Type) [Ordered κ] where
  /-- The keys to hand out, the next one first. -/
  waiting : List κ
  /-- The keys that need work and were not handed out since. -/
  dirty : List κ
  /-- The keys that workers have. -/
  processing : List κ
  /-- How often each key was put off since it was last forgotten. The counts start over after
  the largest one. -/
  failures : Table κ UInt32
  /-- Nothing is handed out any more. -/
  down : Bool

namespace WorkQueue

variable {κ : Type} [Ordered κ]

def empty : WorkQueue κ := ⟨[], [], [], .empty, false⟩

instance : Inhabited (WorkQueue κ) := ⟨empty⟩

/-- Marks a key as needing work, and says whether it got in line. -/
def add (q : WorkQueue κ) (k : κ) : WorkQueue κ × Bool :=
  if q.down || q.dirty.contains k then (q, false)
  else
    let q := { q with dirty := q.dirty ++ [k] }
    if q.processing.contains k then (q, false)
    else ({ q with waiting := q.waiting ++ [k] }, true)

/-- Hands out the key whose turn it is. -/
def take? (q : WorkQueue κ) : Option (κ × WorkQueue κ) :=
  match q.waiting with
  | [] => none
  | k :: rest =>
    some (k, { q with
      waiting := rest
      dirty := q.dirty.filter (· ≠ k)
      processing := k :: q.processing })

/-- Takes a key back from its worker, and says whether it got in line. -/
def done (q : WorkQueue κ) (k : κ) : WorkQueue κ × Bool :=
  let q := { q with processing := q.processing.filter (· ≠ k) }
  if q.dirty.contains k && !q.down then ({ q with waiting := q.waiting ++ [k] }, true)
  else (q, false)

/-- How often a key was put off. -/
def requeues (q : WorkQueue κ) (k : κ) : UInt32 := (q.failures.find? k).getD 0

/-- Puts a key off once more. -/
def countFailure (q : WorkQueue κ) (k : κ) : WorkQueue κ :=
  { q with failures := q.failures.insert k (q.requeues k + 1) }

/-- The count of a key is the largest one. -/
def isFull (q : WorkQueue κ) (k : κ) : Bool := q.requeues k == 4294967295

/-- Forgets how often a key was put off. -/
def forget (q : WorkQueue κ) (k : κ) : WorkQueue κ :=
  { q with failures := q.failures.erase k }

def shutDown (q : WorkQueue κ) : WorkQueue κ := { q with down := true }

/-- The number of keys in line. -/
def length (q : WorkQueue κ) : Nat := q.waiting.length

end WorkQueue

end GameFleet
