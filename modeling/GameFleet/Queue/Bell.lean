/-!
# Bells

Tasks that find nothing to do wait at a `Bell`. A ring calls the task that has waited
longest, or, if none waits, is kept for the next task that comes (`Bell.arrive`). At
most one ring is kept. A task that leaves after it was called passes the call on
(`Bell.leave`). A ring for all calls every task that waits and is not kept.
-/

namespace GameFleet

structure Bell where
  /-- A ring that no task was there for. -/
  kept : Bool
  /-- The tasks that wait, the first to come first. -/
  waiting : List Nat
  /-- The tasks that were called by a ring for one and did not come back yet. -/
  called : List Nat
  deriving DecidableEq, Repr

namespace Bell

def new : Bell := ⟨false, [], []⟩

/-- A ring, and the task it calls. -/
def ring (b : Bell) : Option Nat × Bell :=
  match b.waiting with
  | [] => (none, { b with kept := true })
  | task :: rest => (some task, { b with waiting := rest, called := task :: b.called })

/-- A ring for all, and the tasks it calls. -/
def ringAll (b : Bell) : List Nat × Bell := (b.waiting, { b with waiting := [] })

/-- A task comes to wait, which a kept ring spares it. -/
def arrive (b : Bell) (task : Nat) : Bool × Bell :=
  if b.kept then (true, { b with kept := false })
  else (false, { b with waiting := b.waiting ++ [task] })

/-- A task that was called comes back. -/
def answer (b : Bell) (task : Nat) : Bell := { b with called := b.called.erase task }

/-- A task gives up waiting. A call to it that it did not follow goes to the next. -/
def leave (b : Bell) (task : Nat) : Option Nat × Bell :=
  if b.called.contains task then ring { b with called := b.called.erase task }
  else (none, { b with waiting := b.waiting.erase task })

end Bell

end GameFleet
