import GameFleet.Resource.Key

/-!
# Events

An `Event` tells operators what the control plane did to an object, or what it cannot do
without them.
-/

namespace GameFleet

inductive EventType where
  | normal
  | warning
  deriving DecidableEq, Repr

instance : Named EventType where
  all := [.normal, .warning]
  name
    | .normal => "Normal"
    | .warning => "Warning"

/-- Why an event was recorded. -/
inductive Reason where
  | synced
  | replicasIncreased
  | replicasDecreased
  | failedInstances
  | needsIntervention
  | podCreated
  | instanceDeleted
  | scaled
  deriving DecidableEq, Repr

instance : Named Reason where
  all := [.synced, .replicasIncreased, .replicasDecreased, .failedInstances, .needsIntervention,
    .podCreated, .instanceDeleted, .scaled]
  name
    | .synced => "Synced"
    | .replicasIncreased => "ReplicasIncreased"
    | .replicasDecreased => "ReplicasDecreased"
    | .failedInstances => "FailedInstancesHandled"
    | .needsIntervention => "NeedsIntervention"
    | .podCreated => "PodCreated"
    | .instanceDeleted => "InstanceDeleted"
    | .scaled => "Autoscaled"

structure Event where
  type : EventType
  /-- The kind of the object it is about. -/
  kind : String
  object : Key
  reason : Reason
  message : String
  deriving DecidableEq, Repr

/-- The reasons of the events about an object, the oldest first. -/
def Event.reasonsFor (events : List Event) (object : Key) : List Reason :=
  (events.filter fun e => e.object = object).map (·.reason)

end GameFleet
