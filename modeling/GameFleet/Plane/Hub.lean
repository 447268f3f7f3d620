import GameFleet.Pass.Reconciler
import GameFleet.Plane.Basic
import GameFleet.Queue.Basic

/-!
# Hubs

A `Hub` is a plane with what connects it to the reconcilers: their queues, which the
informers fill, and the cleanups that were called for and did not run yet. A program that
waits, for the port registry or before another attempt, lets the hub come to rest before
it goes on (`Hub.serve`).

At rest the informers have read all there is, and no cleanup is left (`Hub.settle`).
-/

namespace GameFleet

/-- The queues of the three reconcilers. -/
structure Queues where
  gameServers : WorkQueue String
  collections : WorkQueue String
  autoscalers : WorkQueue String

namespace Queues

def empty : Queues := ⟨.empty, .empty, .empty⟩

def get (q : Queues) : Reconciler → WorkQueue String
  | .gameServer => q.gameServers
  | .collection => q.collections
  | .autoscaler => q.autoscalers

/-- Changes one of the queues. -/
def modify (q : Queues) (f : WorkQueue String → WorkQueue String) : Reconciler → Queues
  | .gameServer => { q with gameServers := f q.gameServers }
  | .collection => { q with collections := f q.collections }
  | .autoscaler => { q with autoscalers := f q.autoscalers }

/-- Puts keys into a queue. -/
def addAll (q : Queues) (r : Reconciler) (keys : List Key) : Queues :=
  q.modify (fun queue => keys.foldl (fun queue k => (queue.add k.toText).1) queue) r

end Queues

structure Hub where
  plane : Plane
  queues : Queues
  /-- The cleanups to run, the first one called for first. -/
  cleanups : List (Program Unit)

namespace Hub

def new (plane : Plane) : Hub := ⟨plane, .empty, []⟩

/-! ## Delivery -/

/-- Tells the reconcilers of a change in a cache. -/
def hear (kind : Kind) (h : Hub) (change : Change kind.Obj) : Hub :=
  { h with
    queues := (Named.all : List Reconciler).foldl
      (fun queues r => queues.addAll r (r.triggered kind change)) h.queues
    cleanups := h.cleanups ++ (Cleanup.after? kind change).toList }

/-- Lets an informer do something, and tells the reconcilers of the changes. -/
def informed (kind : Kind)
    (op : Shelf kind.Obj → List (Change kind.Obj) × Shelf kind.Obj) (h : Hub) : Hub :=
  let (changes, plane) := Plane.onShelf kind op h.plane
  changes.foldl (hear kind) { h with plane }

def kinds : List Kind := [.gameServer, .collection, .pod, .node]

/-- Starts the informers. -/
def start (h : Hub) : Hub := kinds.foldl (fun h kind => informed kind (·.startInformer) h) h

/-- Lets the informers read all there is. -/
def deliver (h : Hub) : Hub := kinds.foldl (fun h kind => informed kind (·.catchUp) h) h

/-! ## Waiting -/

/-- Whether a program that makes a request waits for the answer. The registry answers at
once if it has ended or there is nothing to do. -/
def waits (p : Plane) : Request → Bool
  | .allocate _ => !p.registry.finished
  | .release _ ports => !ports.isEmpty && !p.registry.finished
  | .pause _ => true
  | _ => false

/-- Runs a program until it waits, and what of it is left then. -/
def runOn : Program Unit → Plane → Option (Program Unit) × Plane
  | .done _, p => (none, p)
  | .call request next, p =>
    let waits := waits p request
    let (answer, p) := Plane.serve request p
    if waits then (some (next answer), p) else runOn (next answer) p

/-! ## Rest -/

/-- Runs the cleanups that were called for, each until it waits. Those that wait go on
when all others have run. -/
def cleanUp (h : Hub) : Hub :=
  let (waiting, plane) := h.cleanups.foldl
    (fun (waiting, plane) program =>
      let (rest?, plane) := runOn program plane
      (waiting ++ rest?.toList, plane))
    ([], h.plane)
  { h with plane, cleanups := waiting }

/-- Delivers and cleans up until no cleanup is left, at most so many times. -/
def settleFor : Nat → Hub → Hub
  | 0, h => h
  | rounds + 1, h =>
    let h := h.deliver
    if h.cleanups.isEmpty then h else settleFor rounds h.cleanUp

/-- The hub at rest. What a cleanup calls for are cleanups after objects that it deleted,
and it waits once at most, so there are no more than twice as many rounds as there are
objects and two. -/
def settle (h : Hub) : Hub :=
  settleFor
    (2 * (h.plane.gameServers.store.objects.size + h.plane.collections.store.objects.size + 2)) h

/-! ## Programs -/

/-- Answers a request, and comes to rest if the program waits. -/
def serve (request : Request) : StateM Hub request.Answer := fun h =>
  let waits := waits h.plane request
  let (answer, plane) := Plane.serve request h.plane
  let h := { h with plane }
  (answer, if waits then h.settle else h)

def run {α : Type} (program : Program α) : StateM Hub α := program.run (m := StateM Hub) serve

/-! ## Queues -/

/-- Hands out the keys in a queue, up to `count`. -/
def handOut : Nat → WorkQueue String → List String × WorkQueue String
  | 0, queue => ([], queue)
  | count + 1, queue =>
    match queue.take? with
    | none => ([], queue)
    | some (k, queue) =>
      let (ks, queue) := handOut count (queue.done k).1
      (k :: ks, queue)

/-- Takes all keys out of a queue. -/
def drain (h : Hub) (r : Reconciler) : List String × Hub :=
  let queue := h.queues.get r
  let (ks, queue) := handOut queue.length queue
  (ks, { h with queues := h.queues.modify (fun _ => queue) r })

end Hub

end GameFleet
