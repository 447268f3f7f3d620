import GameFleet.Autoscaling
import GameFleet.Pass.Basic

/-!
# The pass of an autoscaler

A pass over a collection's autoscaler (`Pass.autoscaler`) makes at most one step. It
looks at collections that are healthy and whose pods run, and only when the cooldown of
the last step is over. The step is written on the collection that was looked at, so it
is refused if another write came in between.
-/

namespace GameFleet.Pass

/-- The collection is in a state in which its load means something. -/
def isSteady (c : Collection) : Bool :=
  c.status.health = .healthy ∧ c.status.podState = some .running

/-- Makes a step. -/
def takeStep (c : Collection) (key : Key) (step : ScaleStep) (now : Time.Instant) :
    Pass ScaleStep := do
  let scaled := c.scaled step now
  let _ ← access (.update .collection scaled)
  record .normal .collection key .scaled
    ("Scaled " ++ step.direction ++ " to " ++ toString scaled.spec.replicas ++ " replicas")
  return step

/-- A pass over the autoscaler of a collection, and the step it made. -/
def autoscaler (key : Key) : Pass (Option ScaleStep) := do
  match ← cached .collection key with
  | none => return none
  | some c =>
    if Resource.isTerminating c then return none
    match c.activeAutoscaler? with
    | none => return none
    | some a =>
      if !isSteady c then return none
      let now ← ask .now
      if a.coolingDown now then return none
      let members ← cachedList .gameServer c.metadata.ns c.memberSelector
      match a.decide members with
      | none => return none
      | some step => return some (← takeStep c key step now)

end GameFleet.Pass
