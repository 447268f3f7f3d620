import GameFleet.Queue.Delayed

/-!
# Sessions at a queue

A `Session` is one client at a queue of texts, alone but for the tasks it starts to wait
for a key each. The client's operations take no time; `Session.settle` lets the tasks run
to rest, and `Session.advance` lets time pass.
-/

namespace GameFleet

structure Session where
  timed : TimedQueue String Empty
  /-- What waiting tasks came back with, the first first. -/
  served : List (Nat × Option String)

namespace Session

def start (backoff : Backoff) : Session := ⟨.new backoff, []⟩

/-- The client itself, when it tries to get a key. All other tasks have other numbers. -/
def client : Nat := 0

/-- How many turns a session is given to come to rest. -/
def patience : Nat := 1000000

def queue (s : Session) : WorkQueue String := s.timed.queue

def now (s : Session) : Nat := s.timed.schedule.now

/-- A waiting task tries to get a key, and ends when it has one or the queue is down. -/
def serve (s : Session) (task : Nat) : Session :=
  match s.timed.attempt task with
  | (.got k, timed) => ⟨timed, s.served ++ [(task, some k)]⟩
  | (.closed, timed) => ⟨timed, s.served ++ [(task, none)]⟩
  | (.blocked, timed) => { s with timed }

/-- One turn of a task. -/
def turn : Turns Session (QueueTask String Empty) := fun task s schedule =>
  let s := { s with timed := { s.timed with schedule } }
  let s : Session :=
    match task with
    | .called task => s.serve task
    | .sleeper k delay => { s with timed := s.timed.setAlarm k delay }
    | .due k => { s with timed := s.timed.add k }
  (s, s.timed.schedule)

/-- The session with the schedule that its tasks left. -/
def withSchedule : Session × Schedule (QueueTask String Empty) → Session
  | (s, schedule) => { s with timed := { s.timed with schedule } }

def settle (s : Session) : Session :=
  withSchedule (turn.settle patience (s, s.timed.schedule))

/-- Lets time pass. What is due at the end of the span does not run yet, and in no time at
all nothing runs. -/
def advance (s : Session) (span : Nat) : Session :=
  if span = 0 then s
  else withSchedule (turn.advance (s.now + span) patience (s, s.timed.schedule))

/-- The client tries to get a key and does not wait. -/
def get (s : Session) : Attempt String × Session :=
  match s.timed.attempt client with
  | (.blocked, timed) => (.blocked, { s with timed := timed.giveUp client })
  | (result, timed) => (result, { s with timed })

/-- Starts a task that waits for a key. -/
def wait (s : Session) (task : Nat) : Session :=
  { s with timed := { s.timed with schedule := s.timed.schedule.spawn (.called task) } }

/-- Gets and returns keys until there are none, up to `count`. -/
def drain : Nat → Session → List String × Session
  | 0, s => ([], s)
  | count + 1, s =>
    if s.queue.waiting.isEmpty || s.queue.down then ([], s)
    else
      match s.get with
      | (.got k, s) =>
        let (ks, s) := drain count { s with timed := s.timed.done k }
        (k :: ks, s)
      | (_, s) => ([], s)

end Session

end GameFleet
