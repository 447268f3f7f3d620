import GameFleet.Backoff
import GameFleet.Plane.Hub
import GameFleet.Schedule

/-!
# Fleets at work

In a `Fleet` the reconcilers make passes over the keys in their queues, one pass at a
time, as soon as the caches they depend on are in sync. A key whose pass failed is put
off and comes back when its delay is over.
-/

namespace GameFleet

/-- What there is to do in a fleet. -/
inductive FleetTask where
  /-- To make passes until the queues are empty. -/
  | work
  /-- A key that was put off comes back. -/
  | due (reconciler : Reconciler) (key : String)
  deriving DecidableEq, Repr

structure Fleet where
  hub : Hub
  schedule : Schedule FleetTask
  context : PassContext
  backoff : Backoff
  /-- The reconcilers make passes. -/
  running : Bool

namespace Fleet

/-- A fleet whose reconcilers make no passes yet. -/
def new (plane : Plane) (context : PassContext) : Fleet :=
  ⟨.new plane, .new, context, .fixed 1 50, false⟩

/-- The cache of a kind was filled. -/
def isSynced (h : Hub) (kind : Kind) : Bool := (h.plane.shelf kind).informer.synced

/-- The reconciler whose turn it is, and a key from its queue. -/
def next? (h : Hub) : Option (Reconciler × String × Hub) :=
  (Named.all : List Reconciler).findSome? fun r =>
    if r.dependencies.all (isSynced h) then
      ((h.queues.get r).take?).map fun (k, queue) =>
        (r, k, { h with queues := h.queues.modify (fun _ => queue) r })
    else none

/-- The hub and the schedule after a pass over a key. -/
def afterPass (backoff : Backoff) (r : Reconciler) (k : String) (failed : Bool)
    (h : Hub) (s : Schedule FleetTask) : Hub × Schedule FleetTask :=
  if failed then
    let delay := backoff.steady ((h.queues.get r).requeues k).toNat
    ({ h with queues := h.queues.modify (fun queue => ((queue.countFailure k).done k).1) r },
      s.sleep delay (.due r k))
  else
    ({ h with queues := h.queues.modify (fun queue => ((queue.forget k).done k).1) r }, s)

/-- Makes a pass if there is a key for one. -/
def work (context : PassContext) (backoff : Backoff) (h : Hub) (s : Schedule FleetTask) :
    Hub × Schedule FleetTask :=
  let h := h.settle
  match next? h with
  | none => (h, s)
  | some (r, k, h) =>
    let (result, h) := Hub.run (r.sync context k).run h
    let (h, s) := afterPass backoff r k (!result.isOk) h s
    (h, s.spawn .work)

/-- One turn of a task. -/
def turn (context : PassContext) (backoff : Backoff) : Turns Hub FleetTask := fun task h s =>
  match task with
  | .work => work context backoff h s
  | .due r k =>
    ({ h with queues := h.queues.modify (fun queue => (queue.add k).1) r }, s.spawn .work)

/-- How many turns a fleet is given in a span of time. -/
def patience : Nat := 1000000

/-- Lets the informers and, if they run, the reconcilers go on for a span of time. -/
def advance (f : Fleet) (span : Nat) : Fleet :=
  if f.running then
    let s := f.schedule.spawn .work
    let (hub, schedule) :=
      (turn f.context f.backoff).advance (s.now + span) patience (f.hub, s)
    { f with hub, schedule }
  else { f with hub := f.hub.settle }

/-- The fleet at rest: the informers have read all there is and, if the reconcilers run, the
queues are empty. No time passes. -/
def settle (f : Fleet) : Fleet :=
  if f.running then
    let (hub, schedule) :=
      (turn f.context f.backoff).settle patience (f.hub, f.schedule.spawn .work)
    { f with hub, schedule }
  else { f with hub := f.hub.settle }

/-- Starts the informers, and the reconcilers if `running`. -/
def start (f : Fleet) (running : Bool) : Fleet := { f with hub := f.hub.start, running }

/-! ## Programs -/

/-- Answers a request of a program that runs beside the reconcilers. They come to rest if it
waits. -/
def serve (request : Request) : StateM Fleet request.Answer := fun f =>
  let waits := Hub.waits f.hub.plane request
  let (answer, plane) := Plane.serve request f.hub.plane
  let f := { f with hub := { f.hub with plane } }
  (answer, if waits then f.settle else f)

/-- Runs a program beside the reconcilers. -/
def run {α : Type} (program : Program α) : StateM Fleet α :=
  program.run (m := StateM Fleet) serve

/-- How many objects a client finds by a request. -/
def found : (request : Request) → request.Answer → Nat
  | .get _ _, .ok (some _) => 1
  | _, _ => 0

/-- Runs a program and counts the objects that it gets. -/
def runCounting {α : Type} (program : Program α) : StateM Fleet (α × Nat) :=
  let serve (request : Request) : StateT Nat (StateM Fleet) request.Answer := fun count => do
    let answer ← serve request
    return (answer, count + found request answer)
  (program.run (m := StateT Nat (StateM Fleet)) serve).run 0

end Fleet

end GameFleet
