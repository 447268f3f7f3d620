import GameFleet.Manifest
import GameFleet.Pass.Basic

/-!
# Creating the objects of a manifest

The objects of a manifest are created kind by kind, in the order in which they are
listed. One that exists already is left as it is; another error ends it.
-/

namespace GameFleet

/-- An object of a manifest that could not be created. -/
structure SeedError where
  kind : String
  key : Key
  cause : StoreError
  deriving DecidableEq, Repr

def SeedError.message (e : SeedError) : String :=
  "failed to create " ++ e.kind ++ " " ++ e.key.toText ++ ": " ++ e.cause.message

namespace Manifest

/-- Creates objects of a kind that do not exist yet. -/
def createAll (kind : Kind) : List kind.Obj → ExceptT SeedError Program Unit
  | [] => return ()
  | a :: as => do
    match ← ExceptT.lift (Program.ask (.create kind a)) with
    | .ok _ => createAll kind as
    | .error cause =>
      if cause.isAlreadyExists then createAll kind as
      else throw ⟨Resource.kind kind.Obj, Resource.key a, cause⟩

/-- Creates the objects of a manifest. -/
def apply (m : Manifest) : ExceptT SeedError Program Unit := do
  createAll .node m.nodes
  createAll .collection m.collections
  createAll .gameServer m.gameServers
  createAll .pod m.pods

end Manifest

end GameFleet
