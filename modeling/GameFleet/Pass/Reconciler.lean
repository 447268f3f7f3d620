import GameFleet.Pass.Autoscalers
import GameFleet.Pass.Cleanup
import GameFleet.Pass.Collections
import GameFleet.Pass.GameServers
import GameFleet.Pass.Trigger

/-!
# The three reconcilers

There is one reconciler each for instances, collections and autoscalers. It makes passes
over the keys in its queue, and changes of cached objects put keys into the queue. A
deleted instance or collection calls for a cleanup instead, which is a task of its own.
-/

namespace GameFleet

inductive Reconciler where
  | gameServer
  | collection
  | autoscaler
  deriving DecidableEq, Repr

instance : Named Reconciler where
  all := [.gameServer, .collection, .autoscaler]
  name
    | .gameServer => "dedicated-game-server"
    | .collection => "dedicated-game-server-collection"
    | .autoscaler => "collection-autoscaler"

namespace Reconciler

/-- A pass over a key. -/
def pass (context : PassContext) : Reconciler → Key → Pass Unit
  | .gameServer, key => Pass.gameServer context key
  | .collection, key => Pass.collection context key
  | .autoscaler, key => do let _ ← Pass.autoscaler key

/-- The pass that an entry of the queue stands for. An entry that is no key is dropped. -/
def sync (context : PassContext) (r : Reconciler) (entry : String) : Pass Unit :=
  match Key.ofText entry with
  | .ok key => r.pass context key
  | .error _ => return ()

/-- The keys that a change of an object puts into the queue. -/
def triggered : Reconciler → (kind : Kind) → Change kind.Obj → List Key
  | .gameServer, .gameServer => Trigger.gameServerByGameServer
  | .gameServer, .pod => Trigger.gameServerByPod
  | .collection, .collection => Trigger.collectionByCollection
  | .collection, .gameServer => Trigger.collectionByGameServer
  | .autoscaler, .collection => Trigger.autoscalerByCollection
  | .autoscaler, .gameServer => Trigger.autoscalerByGameServer
  | _, _ => fun _ => []

/-- The kinds whose caches have to be in sync before there are passes. -/
def dependencies : Reconciler → List Kind
  | .gameServer => [.gameServer, .pod, .node]
  | .collection => [.collection, .gameServer]
  | .autoscaler => [.collection, .gameServer]

end Reconciler

/-- The cleanup that a change of an object calls for. -/
def Cleanup.after? : (kind : Kind) → Change kind.Obj → Option (Program Unit)
  | .gameServer, .deleted g => some (Cleanup.gameServer g)
  | .collection, .deleted c => some (Cleanup.collection c)
  | _, _ => none

end GameFleet
