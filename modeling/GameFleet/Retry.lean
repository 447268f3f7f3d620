import GameFleet.Backoff
import GameFleet.Json.Reading

/-!
# Trying again after a conflict

A write that lost a race is tried again on a fresh copy, a limited number of times and
with a pause before each time that grows. `Retry.run` does so in any monad: it tells a
conflict by a test, and pauses by an action. Whatever is no conflict ends it, and so does
the last conflict.
-/

namespace GameFleet

structure Retry where
  /-- How often to try in all. At least one attempt is made. -/
  attempts : Nat
  backoff : Backoff
  deriving DecidableEq, Repr

namespace Retry

def standard : Retry := ⟨5, ⟨10000, 100000, 1 / 10⟩⟩

instance : Inhabited Retry := ⟨standard⟩

variable {m : Type → Type} [Monad m] {α : Type}

/-- Makes an attempt, and up to `more` others after conflicts. -/
def attempt (conflict : α → Bool) (pause : Nat → m Unit) (op : m α) : Nat → Nat → m α
  | 0, _ => op
  | more + 1, failures => do
    let result ← op
    if conflict result then
      pause failures
      attempt conflict pause op more (failures + 1)
    else return result

/-- Runs `op` until its result is no conflict, as often as the policy allows. `pause`
gets the number of failures before the last one. -/
def run (r : Retry) (conflict : α → Bool) (pause : Nat → m Unit) (op : m α) : m α :=
  attempt conflict pause op (r.attempts - 1) 0

end Retry

/-! ## Scripted attempts -/

/-- What an attempt comes to. -/
inductive Outcome where
  | ok
  | conflict
  | other
  deriving DecidableEq, Repr

instance : Named Outcome where
  all := [.ok, .conflict, .other]
  name
    | .ok => "ok"
    | .conflict => "conflict"
    | .other => "other"

/-- How often attempts were made, and how long was paused, in milliseconds. -/
structure Effort where
  calls : Nat
  paused : Nat
  deriving DecidableEq, Repr

namespace Effort

/-- The outcome of the next call. The last one of the script repeats. -/
def call (script : List Outcome) : StateM Effort (Outcome × Nat) := fun e =>
  let outcome := (script[e.calls]?).getD (script.getLast?.getD .ok)
  ((outcome, e.calls), { e with calls := e.calls + 1 })

def pause (backoff : Backoff) (failures : Nat) : StateM Effort Unit :=
  modify fun e => { e with paused := e.paused + backoff.steady failures }

end Effort

/-- The outcome of scripted attempts, the number of the call it is from, and the effort
it took. -/
def Retry.rehearse (r : Retry) (script : List Outcome) : (Outcome × Nat) × Effort :=
  (r.run (fun result => result.1 = .conflict) (Effort.pause r.backoff) (Effort.call script)).run
    ⟨0, 0⟩

end GameFleet
