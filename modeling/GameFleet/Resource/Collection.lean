import GameFleet.Resource.GameServer

/-!
# Collections of game servers

A `Collection` asks for a number of equal instances. It counts the failures of its
members, up to a limit at which an operator has to step in, and may have an autoscaler
that moves the number asked for with the load.
-/

namespace GameFleet

/-- What becomes of a member that failed. -/
inductive FailBehavior where
  /-- It is detached and kept for inspection. -/
  | remove
  | delete
  deriving DecidableEq, Repr

instance : Named FailBehavior where
  all := [.remove, .delete]
  name
    | .remove => "Remove"
    | .delete => "Delete"

/-- Settings of an autoscaler. Thresholds are in percent of the players that the running
members have room for. -/
structure Autoscaler where
  minimumReplicas : UInt32
  maximumReplicas : UInt32
  scaleInThreshold : UInt32
  scaleOutThreshold : UInt32
  enabled : Bool
  coolDownInMinutes : UInt32
  maxPlayersPerServer : UInt32
  /-- The timestamp of the last step. -/
  lastScale : Option String
  deriving DecidableEq, Repr

def Autoscaler.fields : Record Autoscaler where
  title := "AutoScalerDetails"
  blank := ⟨0, 0, 0, 0, false, 0, 0, none⟩
  fields := [
    .mandatory "minimumReplicas" minimumReplicas fun v a => { a with minimumReplicas := v },
    .mandatory "maximumReplicas" maximumReplicas fun v a => { a with maximumReplicas := v },
    .mandatory "scaleInThreshold" scaleInThreshold fun v a => { a with scaleInThreshold := v },
    .mandatory "scaleOutThreshold" scaleOutThreshold fun v a => { a with scaleOutThreshold := v },
    .defaulted "enabled" enabled fun v a => { a with enabled := v },
    .defaulted "coolDownInMinutes" coolDownInMinutes fun v a => { a with coolDownInMinutes := v },
    .mandatory "maxPlayersPerServer" maxPlayersPerServer
      fun v a => { a with maxPlayersPerServer := v },
    .optional "lastScaleOperationDateTime" lastScale fun v a => { a with lastScale := v }]

instance : Form Autoscaler := Autoscaler.fields.form

/-- The health of a collection. It leaves `needsIntervention` only when its count of
failures is below the limit again. -/
inductive CollectionHealth where
  | creating
  | healthy
  | failed
  | needsIntervention
  deriving DecidableEq, Repr

instance : Named CollectionHealth where
  all := [.creating, .healthy, .failed, .needsIntervention]
  name
    | .creating => "Creating"
    | .healthy => "Healthy"
    | .failed => "Failed"
    | .needsIntervention => "NeedsIntervention"

/-- The health of a collection that takes after one of its members. -/
def CollectionHealth.ofMember : Health → CollectionHealth
  | .creating => .creating
  | .healthy => .healthy
  | .failed => .failed

structure CollectionSpec where
  replicas : UInt32
  template : Template
  portsToExpose : List Port
  failBehavior : FailBehavior
  maxFailures : UInt32
  autoscaler : Option Autoscaler
  deriving DecidableEq, Repr

def CollectionSpec.fields : Record CollectionSpec where
  title := "DedicatedGameServerCollectionSpec"
  blank := ⟨0, default, [], .remove, 0, none⟩
  fields := [
    .mandatory "replicas" replicas fun v s => { s with replicas := v },
    .mandatory "template" template fun v s => { s with template := v },
    .listed "portsToExpose" portsToExpose fun v s => { s with portsToExpose := v },
    .defaulted "dgsFailBehavior" failBehavior fun v s => { s with failBehavior := v },
    .defaulted "dgsMaxFailures" maxFailures fun v s => { s with maxFailures := v },
    .optional "autoscalerDetails" autoscaler fun v s => { s with autoscaler := v }]

instance : Form CollectionSpec := CollectionSpec.fields.form

structure CollectionStatus where
  health : CollectionHealth
  podState : Option PodPhase
  available : UInt32
  timesFailed : UInt32
  deriving DecidableEq, Repr

namespace CollectionStatus

def initial : CollectionStatus := ⟨.creating, none, 0, 0⟩

def fields : Record CollectionStatus where
  title := "DedicatedGameServerCollectionStatus"
  blank := initial
  fields := [
    .defaulted "dgsCollectionHealth" health fun v s => { s with health := v },
    .optional "podCollectionState" podState fun v s => { s with podState := v },
    .defaulted "availableReplicas" available fun v s => { s with available := v },
    .defaulted "dgsTimesFailed" timesFailed fun v s => { s with timesFailed := v }]

instance : Form CollectionStatus := fields.form

end CollectionStatus

structure Collection where
  metadata : Meta
  spec : CollectionSpec
  status : CollectionStatus
  deriving DecidableEq

namespace Collection

def fields : Record Collection where
  title := "DedicatedGameServerCollection"
  blank := ⟨default, CollectionSpec.fields.blank, .initial⟩
  fields := [
    .mandatory "metadata" metadata fun v c => { c with metadata := v },
    .mandatory "spec" spec fun v c => { c with spec := v },
    .defaulted "status" status fun v c => { c with status := v }]

instance : Form Collection := fields.form

instance : Inhabited Collection := ⟨fields.blank⟩

instance : Resource Collection where
  kind := "DedicatedGameServerCollection"
  metadata := metadata
  setMeta c m := { c with metadata := m }
  metadata_setMeta _ _ := rfl
  setMeta_metadata _ := rfl
  setMeta_setMeta _ _ _ := rfl

/-- The failures counted have reached the limit. -/
def thresholdReached (c : Collection) : Bool := c.spec.maxFailures ≤ c.status.timesFailed

/-- The autoscaler, if there is one and it is enabled. -/
def activeAutoscaler? (c : Collection) : Option Autoscaler := c.spec.autoscaler.filter (·.enabled)

/-- Whether an update of a collection is one that the control plane acts on. -/
def changed (old new : Collection) : Bool :=
  old.spec.replicas ≠ new.spec.replicas ∨ old.spec.maxFailures ≠ new.spec.maxFailures ∨
    new.status.timesFailed < old.status.timesFailed

/-! ## Members -/

/-- What members of the collection are selected by, within its namespace. -/
def memberSelector (c : Collection) : Selector :=
  .ofLabel Labels.collectionName c.metadata.name

/-- A new member called `name`, not stored yet. -/
def newMember (c : Collection) (name : String) : GameServer where
  metadata := { (Meta.new c.metadata.ns name).withLabel Labels.collectionName c.metadata.name with
    owners := [Resource.ownerRef c] }
  spec := ⟨c.spec.template, c.spec.portsToExpose⟩
  status := .initial

/-- Healthy when every member is, and otherwise as the first member that is not. -/
def healthOf (members : List GameServer) : CollectionHealth :=
  match (members.map (·.status.health)).find? fun h => h ≠ .healthy with
  | some h => .ofMember h
  | none => .healthy

/-- Running when the pod of every member is, and otherwise as the first that is not. A
member whose pod was not seen counts as pending. -/
def podStateOf (members : List GameServer) : PodPhase :=
  let phases := members.map fun g => g.status.podPhase.getD .pending
  (phases.find? fun p => p ≠ .running).getD .running

/-- A count as far as it goes. -/
def countOf (n : Nat) : UInt32 := UInt32.ofNat (min n (UInt32.size - 1))

/-- The members that are healthy and whose pod runs. -/
def availableOf (members : List GameServer) : UInt32 :=
  countOf (members.countP fun g => g.status.health = .healthy ∧ g.status.podPhase = some .running)

end Collection

end GameFleet
