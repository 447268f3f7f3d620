/-!
# Virtual time

A `Schedule` says which tasks can run now and which wait for an alarm. Tasks run in the
order in which they became ready. When none is ready, time can move: it jumps to the
next alarm (`Schedule.jump`), and the tasks of all alarms due then become ready, those
of equal due times in the order in which they were set.

How a task runs is up to the system it is part of: a `Turns` is one turn of a task, and
`Turns.settle` and `Turns.advance` run a system to rest and over a span of time.
-/

namespace GameFleet

structure Schedule (τ : Type) where
  /-- Milliseconds since the start. -/
  now : Nat
  /-- The tasks to run now, the next one first. -/
  ready : List τ
  /-- When tasks become ready, in the order of the due times. -/
  alarms : List (Nat × τ)

namespace Schedule

variable {τ : Type}

def new : Schedule τ := ⟨0, [], []⟩

/-- Makes a task ready. -/
def spawn (s : Schedule τ) (task : τ) : Schedule τ := { s with ready := s.ready ++ [task] }

/-- Makes tasks ready, in their order. -/
def spawnAll (s : Schedule τ) (tasks : List τ) : Schedule τ :=
  { s with ready := s.ready ++ tasks }

/-- Lets a task go on before all others. -/
def resume (s : Schedule τ) (task : τ) : Schedule τ := { s with ready := task :: s.ready }

/-- Sets an alarm `delay` milliseconds from now. -/
def sleep (s : Schedule τ) (delay : Nat) (task : τ) : Schedule τ :=
  let due := s.now + delay
  { s with alarms :=
      s.alarms.takeWhile (fun a => a.1 ≤ due) ++
        (due, task) :: s.alarms.dropWhile (fun a => a.1 ≤ due) }

/-- When the next alarm is due. -/
def nextDue? (s : Schedule τ) : Option Nat := (s.alarms.head?).map Prod.fst

/-- Moves time to `due` and makes the tasks ready whose alarms are due. -/
def jump (s : Schedule τ) (due : Nat) : Schedule τ :=
  { now := due
    ready := s.ready ++ (s.alarms.takeWhile fun a => a.1 ≤ due).map Prod.snd
    alarms := s.alarms.dropWhile fun a => a.1 ≤ due }

end Schedule

/-- One turn of a task in a system with states `σ`. -/
abbrev Turns (σ τ : Type) := τ → σ → Schedule τ → σ × Schedule τ

namespace Turns

variable {σ τ : Type}

/-- Runs tasks until none is ready, up to `fuel` turns. -/
def settle (turn : Turns σ τ) : Nat → σ × Schedule τ → σ × Schedule τ
  | 0, world => world
  | fuel + 1, (state, s) =>
    match s.ready with
    | [] => (state, s)
    | task :: ready => settle turn fuel (turn task state { s with ready })

/-- Lets time pass until `target`. What is due then becomes ready and does not run yet.
Each jump and each run between jumps takes its turns from `fuel`. -/
def advance (turn : Turns σ τ) (target : Nat) : Nat → σ × Schedule τ → σ × Schedule τ
  | 0, (state, s) => (state, s.jump target)
  | fuel + 1, world =>
    let (state, s) := settle turn (fuel + 1) world
    match s.nextDue? with
    | some due =>
      if due < target then advance turn target fuel (state, s.jump due)
      else (state, s.jump target)
    | none => (state, s.jump target)

end Turns

end GameFleet
