import GameFleet.Resource.Collection
import GameFleet.Store.Basic

/-!
# What a change calls for

A controller is told of every change in the caches. `Trigger` says which keys a change
puts into the queue of each controller: of instances, of collections and of autoscalers.
Keys stand for passes, so a change that no pass would act on calls for none.
-/

namespace GameFleet.Trigger

/-! ## Passes over instances -/

def gameServerByGameServer : Change GameServer → List Key
  | .added g => [Resource.key g]
  | .updated old new => if old.changed new then [Resource.key new] else []
  | .deleted _ => []

/-- A change of a pod calls for a pass over the instance that it is labelled with. -/
def gameServerByPod (c : Change Pod) : List Key :=
  let metadata := c.object.metadata
  ((metadata.label? Labels.gameServerName).map fun name => (⟨metadata.ns, name⟩ : Key)).toList

/-! ## Passes over collections -/

def collectionByCollection : Change Collection → List Key
  | .added c => [Resource.key c]
  | .updated old new => if old.changed new then [Resource.key new] else []
  | .deleted _ => []

/-- The collection that an instance concerns: the one it is a member of, or the one it was
detached from as long as it failed or is to be deleted. -/
def collectionOf (g : GameServer) : Option Key :=
  match g.collection? with
  | some c => some ⟨g.metadata.ns, c⟩
  | none =>
    match g.formerCollection? with
    | some c =>
      if g.status.health = .failed ∨ g.status.markedForDeletion then some ⟨g.metadata.ns, c⟩
      else none
    | none => none

/-- The collections that a change of an instance concerns, in the order of their keys. -/
def collectionByGameServer : Change GameServer → List Key
  | .added g => (collectionOf g).toList
  | .deleted g => (collectionOf g).toList
  | .updated old new =>
    if old.changed new then Key.sort ((collectionOf old).toList ++ (collectionOf new).toList)
    else []

/-! ## Passes over autoscalers -/

/-- A collection calls for a pass when it has an active autoscaler. -/
def autoscaled (c : Collection) : List Key :=
  if c.activeAutoscaler?.isSome then [Resource.key c] else []

def autoscalerByCollection : Change Collection → List Key
  | .added c => autoscaled c
  | .updated _ c => autoscaled c
  | .deleted _ => []

/-- An update of a member calls for a pass over its collection. -/
def autoscalerByGameServer : Change GameServer → List Key
  | .updated _ g => (g.collection?.map fun c => (⟨g.metadata.ns, c⟩ : Key)).toList
  | _ => []

end GameFleet.Trigger
