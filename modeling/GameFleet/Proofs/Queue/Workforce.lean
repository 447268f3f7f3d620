import GameFleet.Proofs.Queue.Summons
import GameFleet.Queue.Controller
import Mathlib.Logic.Relation

/-!
# The workforce of a controller

A `Workforce` is a controller in which each worker acts by itself. It does one thing after the
other (`Chore`) : it looks for a key, and calls the handler with the key that it was handed ; when
the sync has ended it tells the queue of a success or counts a failure, adds a failed key after a
delay, and gives the key back. Clients, sleepers, other workers and the controller itself can act
in between, time can pass, caches and the flag for shutdown can change, and tasks take their turns
in any order (`Workforce.Step`). So does the controller wait for its caches, start its workers,
take its queue down and return, one at a time (`Workforce.Advance`).

Failures are counted up to the largest count. A build says what comes after it (`Overflow`) : the
count starts over, or who counts dies.

What a `Controller` does in one turn of a task, or while it settles or lets time pass, is a
run of such steps (`Workforce.run_turn`, `Workforce.run_settle`, `Workforce.run_advanceTo`).
The handler does as the script of its controller says, which for some script is what it does
in the run at hand.
-/

open Relation

namespace GameFleet

/-- The tasks of a controller and its queue. -/
abbrev WorkTask := QueueTask String ControllerTask

/-- What becomes of a count beyond the largest one. -/
inductive Overflow where
  /-- It starts over. -/
  | wraps
  /-- Who counts dies, and nothing is counted. -/
  | kills
  deriving DecidableEq

/-- What a worker is to do next that is at no sync and does not wait for a key. -/
inductive Chore where
  /-- To call the handler with a key that it was handed. -/
  | handed (key : String)
  /-- To have the failures of a key forgotten, whose sync succeeded. -/
  | succeeded (key : String)
  /-- To count a failure of a key. -/
  | failed (key : String)
  /-- To add a key after a delay, whose failure is counted. -/
  | counted (key : String) (delay : Nat)
  /-- To give a key back. -/
  | told (key : String)
  /-- To look for a key. -/
  | free
  deriving DecidableEq

/-- What the side can do that holds a flag. -/
inductive SignalChange where
  | set (raised : Bool)
  | drop

def SignalChange.apply : SignalChange → Signal → Signal
  | .set raised, s => s.set raised
  | .drop, s => s.drop

structure Workforce where
  controller : Controller
  /-- The workers that have something to do now. -/
  chores : List (Nat × Chore)

namespace Controller

/-- A cache that the controller waits for. -/
def cache (c : Controller) (i : Nat) : Signal := (c.caches[i]?).getD (.new true)

theorem getElem?_cache {c : Controller} {i : Nat} (hi : i < c.caches.length) :
    c.caches[i]? = some (c.cache i) := by
  simp [cache, hi]

/-- The controller when it has started its workers. -/
def staffed (c : Controller) : Controller :=
  { c with
    live := List.range (max c.workers 1)
    timed := { c.timed with
      schedule := c.timed.schedule.spawnAll ((List.range (max c.workers 1)).map .called) } }

/-- The controller when it has taken its queue down. -/
def closed (c : Controller) : Controller := { c with timed := c.timed.shutDown }

end Controller

namespace Workforce

/-- A controller no worker of which is between two moves. -/
def of (c : Controller) : Workforce := ⟨c, []⟩

def timed (p : Workforce) : TimedQueue String ControllerTask := p.controller.timed

def queue (p : Workforce) : WorkQueue String := p.timed.queue

/-! ## Moves -/

/-- The workforce when something was done with its controller. -/
def led (p : Workforce) (c : Controller) : Workforce := { p with controller := c }

/-- The workforce when something was done at its queue. -/
def fed (p : Workforce) (timed : TimedQueue String ControllerTask) : Workforce :=
  p.led { p.controller with timed }

def scheduled (p : Workforce) (schedule : Schedule WorkTask) : Workforce :=
  p.fed { p.timed with schedule }

def withChores (p : Workforce) (chores : List (Nat × Chore)) : Workforce := { p with chores }

/-- A worker has something to do. -/
def assigned (p : Workforce) (worker : Nat) (chore : Chore) : Workforce :=
  { p with chores := (worker, chore) :: p.chores }

/-- The first ready task has gone, and `rest` is ready. -/
def popped (p : Workforce) (rest : List WorkTask) : Workforce :=
  p.scheduled { p.timed.schedule with ready := rest }

/-- A failure of a key is counted. -/
def counted (p : Workforce) (k : String) : Workforce :=
  p.fed { p.timed with shared := { p.timed.shared with queue := p.queue.countFailure k } }

/-- A sync has ended, and its worker goes on unless it dies. -/
def ended (p : Workforce) (worker : Nat) (k : String) : Workforce :=
  let (outcome, script) := p.controller.script.next k
  let c := { p.controller with script }
  match outcome with
  | .ok => (p.led (c.note k "ok")).assigned worker (.succeeded k)
  | .err => (p.led (c.note k "err")).assigned worker (.failed k)
  | .panic => p.led (Controller.endWorker { c with crashed := true } worker)

/-- A worker looks for a key, and has it in hand if there is one. -/
def looked (p : Workforce) (worker : Nat) : Workforce :=
  match p.controller.look worker with
  | (some k, c) => (p.led c).assigned worker (.handed k)
  | (none, c) => p.led c

/-- A worker has died of a count that was the largest one. -/
def overrun (p : Workforce) (worker : Nat) : Workforce :=
  p.led (Controller.endWorker { p.controller with crashed := true } worker)

/-- The turn of a task. -/
def turn (p : Workforce) : WorkTask → Workforce
  | .called worker => p.assigned worker .free
  | .sleeper k delay => p.fed (p.timed.setAlarm k delay)
  | .due k => p.fed (p.timed.add k)
  | .own .lifecycle => p
  | .own (.synced worker k) => p.ended worker k

/-- A failure of a key can be counted. -/
def Counts (o : Overflow) (p : Workforce) (k : String) : Prop :=
  o = .wraps ∨ p.queue.isFull k = false

instance (o : Overflow) (p : Workforce) (k : String) : Decidable (Counts o p k) :=
  inferInstanceAs (Decidable (_ ∨ _))

theorem not_counts {o : Overflow} {p : Workforce} {k : String} :
    ¬Counts o p k ↔ o = .kills ∧ p.queue.isFull k = true := by
  unfold Counts
  cases o <;> simp

/-- A worker does what it has to do. The delay of a failed key may be moved by `noise`. -/
def act (p : Workforce) (o : Overflow) (worker : Nat) (noise : Rat) : Chore → Workforce
  | .handed k => p.led (p.controller.beginSync worker k)
  | .succeeded k => (p.fed (p.timed.forget k)).assigned worker (.told k)
  | .failed k =>
    if Counts o p k then
      (p.counted k).assigned worker
        (.counted k (p.timed.backoff.delay (p.queue.requeues k).toNat noise))
    else p.overrun worker
  | .counted k delay => (p.fed (p.timed.addAfter k delay)).assigned worker (.told k)
  | .told k => (p.fed (p.timed.done k)).assigned worker .free
  | .free => p.looked worker

theorem act_of_counts {o : Overflow} {p : Workforce} {k : String} (h : Counts o p k) (worker : Nat)
    (noise : Rat) : p.act o worker noise (.failed k) = (p.counted k).assigned worker
      (.counted k (p.timed.backoff.delay (p.queue.requeues k).toNat noise)) :=
  if_pos h

theorem act_of_not_counts {o : Overflow} {p : Workforce} {k : String} (h : ¬Counts o p k)
    (worker : Nat) (noise : Rat) : p.act o worker noise (.failed k) = p.overrun worker :=
  if_neg h

/-- How a controller goes on in its life. -/
inductive Advance : Controller → Controller → Prop where
  | passCache (c : Controller) (i : Nat) (rest : List Nat) (hphase : c.phase = .syncing (i :: rest))
    (hraised : (c.cache i).raised = true) : Advance c { c with phase := .syncing rest }
  | loseCache (c : Controller) (i : Nat) (rest : List Nat) (hphase : c.phase = .syncing (i :: rest))
    (hraised : (c.cache i).raised = false) (hheld : (c.cache i).held = false) :
    Advance c (c.closed.finish (.error (.cacheSync c.name)))
  /-- Shutdown comes before a cache is in sync, or is noticed before the cache is. -/
  | quit (c : Controller) (i : Nat) (rest : List Nat) (hphase : c.phase = .syncing (i :: rest))
    (hshutdown : c.shutdown.isShutdown = true) :
    Advance c (c.closed.finish (.ok ()))
  | startWorkers (c : Controller) (hphase : c.phase = .syncing []) :
    Advance c { c.staffed with phase := .running }
  | close (c : Controller) (hphase : c.phase = .running)
    (hshutdown : c.shutdown.isShutdown = true) : Advance c { c.closed with phase := .stopping }
  | finish (c : Controller) (hphase : c.phase = .stopping) (hlive : c.live = []) :
    Advance c (c.finish (if c.crashed then .error .worker else .ok ()))

/-- What can happen next. -/
inductive Step (o : Overflow) : Workforce → Workforce → Prop where
  | add (p : Workforce) (k : String) : Step o p (p.fed (p.timed.add k))
  | addAfter (p : Workforce) (k : String) (delay : Nat) :
    Step o p (p.fed (p.timed.addAfter k delay))
  | countFailure (p : Workforce) (k : String) (hcounts : Counts o p k) : Step o p (p.counted k)
  | forget (p : Workforce) (k : String) : Step o p (p.fed (p.timed.forget k))
  | changeCache (p : Workforce) (i : Nat) (change : SignalChange) :
    Step o p (p.led (p.controller.changeCache i change.apply))
  | changeShutdown (p : Workforce) (change : SignalChange) :
    Step o p (p.led (p.controller.changeShutdown change.apply))
  /-- Time passes, alarms go off, and tasks get ready in any order. -/
  | pass (p : Workforce) (schedule : Schedule WorkTask)
    (hpending : schedule.pending.Perm p.timed.pending) : Step o p (p.scheduled schedule)
  | turn (p : Workforce) (task : WorkTask) (rest : List WorkTask)
    (hready : p.timed.schedule.ready = task :: rest) :
    Step o p ((p.popped rest).turn task)
  | act (p : Workforce) (before : List (Nat × Chore)) (worker : Nat) (chore : Chore)
    (after : List (Nat × Chore)) (noise : Rat)
    (hchore : p.chores = before ++ (worker, chore) :: after) :
    Step o p ((p.withChores (before ++ after)).act o worker noise chore)
  | advance (p : Workforce) (c : Controller) (h : Advance p.controller c) : Step o p (p.led c)

/-- Any number of steps. -/
abbrev Run (o : Overflow) : Workforce → Workforce → Prop := ReflTransGen (Step o)

/-- A workforce that a run from a controller leads to. -/
def Reachable (o : Overflow) (c : Controller) (p : Workforce) : Prop := Run o (of c) p

/-! ## Controllers as runs

A controller lets counts start over. -/

end Workforce

end GameFleet
