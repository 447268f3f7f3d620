import GameFleet.Resource.Collection
import GameFleet.Rounding

/-!
# Decisions of the autoscaler

The load of a collection is the share of the places on its running members that players
take. A step is due when the load is above one threshold or below another
(`Autoscaler.decide`), but none follows another before the cooldown is over
(`Autoscaler.coolingDown`). `Collection.scaled` is the collection after a step.
-/

namespace GameFleet

open Time (Instant)

/-- A step of the autoscaler. -/
inductive ScaleStep where
  /-- One replica more. -/
  | grow
  /-- One replica fewer. -/
  | shrink
  deriving DecidableEq, Repr

instance : Named ScaleStep where
  all := [.grow, .shrink]
  name
    | .grow => "Out"
    | .shrink => "In"

namespace Autoscaler

/-- The nanoseconds of a minute. -/
def nanosPerMinute : Int := 60 * 1000000000

/-- The last step is not longer ago than the cooldown. A last step in the future counts,
and one whose timestamp cannot be read does not. -/
def coolingDown (a : Autoscaler) (now : Instant) : Bool :=
  match a.lastScale.bind Time.ofStamp? with
  | some last => now.since last ≤ a.coolDownInMinutes.toNat * nanosPerMinute
  | none => false

/-- The members whose pods run. -/
def running (members : List GameServer) : List GameServer :=
  members.filter fun g => g.status.podPhase = some .running

/-- The players on some instances. -/
def playersOn (members : List GameServer) : Nat :=
  members.foldr (fun g players => g.status.activePlayers.toNat + players) 0

/-- The share of all places that is taken. -/
def load (players places : Nat) : Rat := Rounding.nearest (players / places)

/-- A threshold in percent, as a share. -/
def threshold (percent : UInt32) : Rat := Rounding.nearest (percent.toNat / 100)

/-- The step that the load of the running members calls for, within the bounds on their
number. -/
def decide (a : Autoscaler) (members : List GameServer) : Option ScaleStep :=
  let running := running members
  let replicas := Collection.countOf running.length
  if replicas = 0 ∨ a.maxPlayersPerServer = 0 then none
  else
    let load := load (playersOn running) (a.maxPlayersPerServer.toNat * replicas.toNat)
    if replicas < a.maximumReplicas ∧ threshold a.scaleOutThreshold < load then some .grow
    else if a.minimumReplicas < replicas ∧ load < threshold a.scaleInThreshold then some .shrink
    else none

end Autoscaler

namespace ScaleStep

/-- The number of replicas after the step. It stops at the ends of its range. -/
def apply (s : ScaleStep) (replicas : UInt32) : UInt32 :=
  match s with
  | .grow => if replicas = UInt32.ofNat (UInt32.size - 1) then replicas else replicas + 1
  | .shrink => if replicas = 0 then 0 else replicas - 1

/-- Which way the step goes, in messages. -/
def direction : ScaleStep → String
  | .grow => "out"
  | .shrink => "in"

end ScaleStep

/-- The collection after a step: the step is stamped with the second it was made in, and
the members have to become healthy again before the next. -/
def Collection.scaled (c : Collection) (s : ScaleStep) (now : Instant) : Collection :=
  { c with
    spec := { c.spec with
      replicas := s.apply c.spec.replicas
      autoscaler := c.spec.autoscaler.map fun a =>
        { a with lastScale := some now.toStampSeconds } }
    status := { c.status with health := .creating } }

end GameFleet
