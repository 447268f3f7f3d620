import GameFleet.Queue.Delayed
import GameFleet.Signal

/-!
# Controllers

A `Controller` waits until its caches are in sync, and then has workers get keys from
its queue and hand them to a handler. A key whose sync failed is put off, and one whose
sync succeeded is forgotten. When shutdown is signalled the queue goes down; the
controller is finished when its workers have finished the syncs they were at.

The handler is a script (`Script`): how long the sync of each key takes, and what each
one comes to.
-/

namespace GameFleet

/-! ## Handlers -/

/-- What the sync of a key comes to. -/
inductive SyncOutcome where
  | ok
  | err
  /-- The worker dies. -/
  | panic
  deriving DecidableEq, Repr

/-- A handler that does as it is told. -/
structure Script where
  /-- How long the sync of each key takes, in milliseconds. -/
  durations : Table String Nat
  /-- What the syncs of each key come to that are still to come. Later ones succeed. -/
  outcomes : Table String (List SyncOutcome)

namespace Script

def duration (s : Script) (k : String) : Nat := (s.durations.find? k).getD 0

/-- What the next sync of a key comes to. -/
def next (s : Script) (k : String) : SyncOutcome × Script :=
  match s.outcomes.find? k with
  | some (outcome :: rest) => (outcome, { s with outcomes := s.outcomes.insert k rest })
  | _ => (.ok, s)

end Script

/-! ## Controllers -/

/-- Why a controller failed. -/
inductive ControllerFailure where
  /-- A cache will never be in sync. -/
  | cacheSync (controller : String)
  /-- A worker died. -/
  | worker
  deriving DecidableEq, Repr

/-- The message of a failure, where its text is fixed. -/
def ControllerFailure.message? : ControllerFailure → Option String
  | .cacheSync controller => some ("failed to wait for caches to sync: " ++ controller)
  | .worker => none

/-- Tasks of a controller besides its workers. -/
inductive ControllerTask where
  /-- The controller itself. -/
  | lifecycle
  /-- A worker comes to the end of a sync. -/
  | synced (worker : Nat) (key : String)
  deriving DecidableEq, Repr

/-- Where a controller is in its life. -/
inductive Phase where
  /-- It waits for the caches from one of them on. -/
  | syncing (caches : List Nat)
  | running
  /-- The queue is down, and workers are to finish. -/
  | stopping
  | finished (result : Except ControllerFailure Unit) (time : Nat)

/-- What happened to a key. -/
structure LogEntry where
  time : Nat
  key : String
  what : String
  deriving DecidableEq, Repr

/-- The order of entries by time, then key, then what happened. -/
def LogEntry.precedes (a b : LogEntry) : Bool :=
  a.time < b.time || a.time == b.time &&
    (a.key < b.key || a.key == b.key && (a.what < b.what || a.what == b.what))

structure Controller where
  name : String
  timed : TimedQueue String ControllerTask
  script : Script
  /-- How many workers to start. At least one is. -/
  workers : Nat
  caches : List Signal
  shutdown : Signal
  phase : Phase
  /-- The workers that have not ended. -/
  live : List Nat
  /-- Some worker died. -/
  crashed : Bool
  log : List LogEntry

namespace Controller

/-- A controller about to run. -/
def start (name : String) (backoff : Backoff) (script : Script) (workers : Nat)
    (caches : List Bool) (shutdown : Bool) : Controller where
  name := name
  timed := .new backoff
  script := script
  workers := workers
  caches := caches.map .new
  shutdown := .new shutdown
  phase := .syncing (List.range caches.length)
  live := []
  crashed := false
  log := []

def queue (c : Controller) : WorkQueue String := c.timed.queue

def now (c : Controller) : Nat := c.timed.schedule.now

/-- Makes a task of the controller ready. -/
def wake (c : Controller) (task : ControllerTask) : Controller :=
  { c with timed := { c.timed with schedule := c.timed.schedule.spawn (.own task) } }

/-- The controller when it has returned. -/
def finish (c : Controller) (result : Except ControllerFailure Unit) : Controller :=
  { c with phase := .finished result c.now }

/-- Returns when no worker is left. -/
def join (c : Controller) : Controller :=
  if c.live.isEmpty then c.finish (if c.crashed then .error .worker else .ok ()) else c

/-- Takes the queue down once shutdown is signalled. -/
def supervise (c : Controller) : Controller :=
  if c.shutdown.isShutdown then
    join { c with timed := c.timed.shutDown, phase := .stopping }
  else { c with phase := .running }

def startWorkers (c : Controller) : Controller :=
  let workers := List.range (max c.workers 1)
  supervise { c with
    live := workers
    timed := { c.timed with schedule := c.timed.schedule.spawnAll (workers.map .called) } }

/-- Waits for caches to be in sync, one after the other. -/
def awaitCaches (c : Controller) : List Nat → Controller
  | [] => c.startWorkers
  | i :: rest =>
    let cache := (c.caches[i]?).getD (.new true)
    if cache.raised then awaitCaches c rest
    else if !cache.held then
      finish { c with timed := c.timed.shutDown } (.error (.cacheSync c.name))
    else if c.shutdown.isShutdown then finish { c with timed := c.timed.shutDown } (.ok ())
    else { c with phase := .syncing (i :: rest) }

/-- A turn of the controller itself. -/
def lifecycle (c : Controller) : Controller :=
  match c.phase with
  | .syncing caches => c.awaitCaches caches
  | .running => c.supervise
  | .stopping => c.join
  | .finished _ _ => c

def note (c : Controller) (k what : String) : Controller :=
  { c with log := c.log ++ [⟨c.now, k, what⟩] }

/-- A worker's end. -/
def endWorker (c : Controller) (worker : Nat) : Controller :=
  wake { c with live := c.live.erase worker } .lifecycle

/-- A worker looks for a key, and comes back with one, ends or waits. -/
def look (c : Controller) (worker : Nat) : Option String × Controller :=
  match c.timed.attempt worker with
  | (.got k, timed) => (some k, { c with timed })
  | (.closed, timed) => (none, endWorker { c with timed } worker)
  | (.blocked, timed) => (none, { c with timed })

/-- A worker calls the handler with a key that it was handed. A sync that takes no time ends
in the same turn. -/
def beginSync (c : Controller) (worker : Nat) (k : String) : Controller :=
  let c := c.note k "start"
  let schedule := c.timed.schedule
  let finished : QueueTask String ControllerTask := .own (.synced worker k)
  let schedule :=
    if c.script.duration k = 0 then schedule.resume finished
    else schedule.sleep (c.script.duration k) finished
  { c with timed := { c.timed with schedule } }

/-- A worker looks for a key and, if it was handed one, begins its sync. In one turn nothing
comes between. -/
def work (c : Controller) (worker : Nat) : Controller :=
  match c.look worker with
  | (some k, c) => c.beginSync worker k
  | (none, c) => c

/-- A worker ends a sync, and goes on unless it dies. -/
def endSync (c : Controller) (worker : Nat) (k : String) : Controller :=
  let (outcome, script) := c.script.next k
  let c := { c with script }
  match outcome with
  | .ok =>
    let c := c.note k "ok"
    work { c with timed := (c.timed.forget k).done k } worker
  | .err =>
    let c := c.note k "err"
    work { c with timed := (c.timed.addRateLimited k).done k } worker
  | .panic => endWorker { c with crashed := true } worker

/-- One turn of a task. -/
def turn : Turns Controller (QueueTask String ControllerTask) := fun task c schedule =>
  let c := { c with timed := { c.timed with schedule } }
  let c : Controller :=
    match task with
    | .called worker => c.work worker
    | .sleeper k delay => { c with timed := c.timed.setAlarm k delay }
    | .due k => { c with timed := c.timed.add k }
    | .own .lifecycle => c.lifecycle
    | .own (.synced worker k) => c.endSync worker k
  (c, c.timed.schedule)

/-! ## What others do -/

def add (c : Controller) (k : String) : Controller := { c with timed := c.timed.add k }

def addAfter (c : Controller) (k : String) (delay : Nat) : Controller :=
  { c with timed := c.timed.addAfter k delay }

/-- The controller waits for a cache. -/
def awaits (c : Controller) (i : Nat) : Bool :=
  match c.phase with
  | .syncing (j :: _) => i == j
  | _ => false

/-- Changes the flag of a cache. The controller notices if it waits for that cache. -/
def changeCache (c : Controller) (i : Nat) (f : Signal → Signal) : Controller :=
  let changed := { c with caches := c.caches.modify i f }
  if c.awaits i then changed.wake .lifecycle else changed

/-- Changes the flag for shutdown. -/
def changeShutdown (c : Controller) (f : Signal → Signal) : Controller :=
  wake { c with shutdown := f c.shutdown } .lifecycle

/-- How many turns a controller is given between two changes from outside. -/
def patience : Nat := 1000000

/-- Lets time pass until `time`. What is due then does not run yet. -/
def advanceTo (c : Controller) (time : Nat) : Controller :=
  if time ≤ c.now then c
  else
    let (c, schedule) := turn.advance time patience (c, c.timed.schedule)
    { c with timed := { c.timed with schedule } }

/-- The controller at rest. -/
def settle (c : Controller) : Controller :=
  let (c, schedule) := turn.settle patience (c, c.timed.schedule)
  { c with timed := { c.timed with schedule } }

end Controller

end GameFleet
