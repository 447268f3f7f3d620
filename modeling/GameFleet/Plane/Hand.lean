import GameFleet.Json.Merge
import GameFleet.Plane.Basic
import GameFleet.Plane.Sample

/-!
# Changes by hand

Operators and the orchestrator can write to the stores beside all programs. Such a write
goes to the store itself, where no disturbance strikes it.
-/

namespace GameFleet

/-- Why an object could not be changed by a patch. -/
inductive PatchError where
  | noSuchObject
  /-- What the patch makes of the object is none of its kind. -/
  | refused (cause : Refusal)
  | store (cause : StoreError)

namespace Plane

/-- An object after a merge patch. -/
def patched (kind : Kind) (patch : Json) (a : kind.Obj) : Except Refusal kind.Obj :=
  Form.ofJson ((Form.write a).merged patch)

/-- Changes a stored object by a merge patch. -/
def patch (kind : Kind) (key : Key) (patch : Json) :
    StateM Plane (Except PatchError kind.Obj) :=
  onShelf kind fun s =>
    match s.store.get? key with
    | none => (.error .noSuchObject, s)
    | some a =>
      match patched kind patch a with
      | .error cause => (.error (.refused cause), s)
      | .ok a =>
        let (result, s) := s.commit (s.store.update a)
        (result.mapError .store, s)

/-- Runs all pods that do not run yet, on a node. -/
def runPods (p : Plane) (node : String) : Plane :=
  let idle := p.pods.store.objects.values.filter fun pod => pod.status.phase ≠ .running
  let pods := idle.foldl
    (fun s pod => (s.commit (s.store.update (Sample.running pod node))).2) p.pods
  { p with pods }

/-- Lets something happen to the calls of clients or to look-ups. -/
def disturb (kind : Kind) (lookups : Bool) (d : Disturbance) (p : Plane) : Plane :=
  let s := p.shelf kind
  p.setShelf kind
    (if lookups then { s with lookupDisturbances := s.lookupDisturbances ++ [d] }
    else { s with disturbances := s.disturbances ++ [d] })

end Plane

end GameFleet
