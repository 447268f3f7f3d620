import GameFleet.Pass.Basic

/-!
# Cleaning up after deleted objects

A store does not delete what depends on a deleted object. When an instance is gone its
host ports are given back and its pods deleted, and when a collection is gone its members
are deleted. What cannot be deleted is left.
-/

namespace GameFleet.Cleanup

/-- Deletes objects, as far as that is possible. -/
def deleteAll (kind : Kind) : List Key → Program Unit
  | [] => return ()
  | key :: rest => do
    let _ ← Program.ask (.delete kind key)
    deleteAll kind rest

/-- Deletes the objects of a namespace that a selector selects and `owner` owns. -/
def deleteOwned (kind : Kind) (ns : String) (selector : Selector) (owner : Kind)
    (name : String) : Program Unit := do
  match ← Program.ask (.list kind ns selector) with
  | .error _ => return ()
  | .ok found =>
    let owned := found.filter fun a =>
      (Resource.metadata a).isOwnedBy (Resource.kind owner.Obj) name
    deleteAll kind (owned.map Resource.key)

/-- Cleans up after an instance that was deleted in this state. -/
def gameServer (g : GameServer) : Program Unit := do
  let _ ← Program.ask (.release (Resource.key g) g.exposedHostPorts)
  deleteOwned .pod g.metadata.ns (.ofLabel Labels.gameServerName g.metadata.name) .gameServer
    g.metadata.name

/-- Cleans up after a collection that was deleted in this state. -/
def collection (c : Collection) : Program Unit :=
  deleteOwned .gameServer c.metadata.ns c.memberSelector .collection c.metadata.name

end GameFleet.Cleanup
