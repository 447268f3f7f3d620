import GameFleet.Resource.Pod

/-!
# Game server instances

A `GameServer` is one dedicated game server. Its process reports its health, the state
of its session and its players; the control plane keeps on it the phase, node and
address of its pod. An instance belongs to a collection as long as it carries the
collection's label, and is drained once it is marked for deletion and its players have
left.
-/

namespace GameFleet

/-- The health that a game server reports. -/
inductive Health where
  | creating
  | healthy
  | failed
  deriving DecidableEq, Repr

instance : Named Health where
  all := [.creating, .healthy, .failed]
  name
    | .creating => "Creating"
    | .healthy => "Healthy"
    | .failed => "Failed"

/-- The state of the session that a game server reports. -/
inductive SessionState where
  | idle
  | assigned
  | running
  | postMatch
  deriving DecidableEq, Repr

instance : Named SessionState where
  all := [.idle, .assigned, .running, .postMatch]
  name
    | .idle => "Idle"
    | .assigned => "Assigned"
    | .running => "Running"
    | .postMatch => "PostMatch"

structure GameServerSpec where
  template : Template
  /-- The container ports to be reached from outside the cluster. -/
  portsToExpose : List Port
  deriving DecidableEq, Repr

def GameServerSpec.fields : Record GameServerSpec where
  title := "DedicatedGameServerSpec"
  blank := ⟨default, []⟩
  fields := [
    .mandatory "template" template fun v s => { s with template := v },
    .listed "portsToExpose" portsToExpose fun v s => { s with portsToExpose := v }]

instance : Form GameServerSpec := GameServerSpec.fields.form

structure GameServerStatus where
  health : Health
  state : SessionState
  /-- The phase of the instance's pod, unset until a pod was seen. -/
  podPhase : Option PodPhase
  publicIp : Option String
  nodeName : Option String
  activePlayers : UInt32
  markedForDeletion : Bool
  deriving DecidableEq, Repr

namespace GameServerStatus

/-- The status of an instance nothing is known of. -/
def initial : GameServerStatus := ⟨.creating, .idle, none, none, none, 0, false⟩

instance : Inhabited GameServerStatus := ⟨initial⟩

def fields : Record GameServerStatus where
  title := "DedicatedGameServerStatus"
  blank := initial
  fields := [
    .defaulted "health" health fun v s => { s with health := v },
    .defaulted "state" state fun v s => { s with state := v },
    .optional "podPhase" podPhase fun v s => { s with podPhase := v },
    .optional "publicIp" publicIp fun v s => { s with publicIp := v },
    .optional "nodeName" nodeName fun v s => { s with nodeName := v },
    .defaulted "activePlayers" activePlayers fun v s => { s with activePlayers := v },
    .defaulted "markedForDeletion" markedForDeletion fun v s => { s with markedForDeletion := v }]

instance : Form GameServerStatus := fields.form

end GameServerStatus

structure GameServer where
  metadata : Meta
  spec : GameServerSpec
  status : GameServerStatus
  deriving DecidableEq

namespace GameServer

def fields : Record GameServer where
  title := "DedicatedGameServer"
  blank := ⟨default, GameServerSpec.fields.blank, .initial⟩
  fields := [
    .mandatory "metadata" metadata fun v g => { g with metadata := v },
    .mandatory "spec" spec fun v g => { g with spec := v },
    .defaulted "status" status fun v g => { g with status := v }]

instance : Form GameServer := fields.form

instance : Inhabited GameServer := ⟨fields.blank⟩

instance : Resource GameServer where
  kind := "DedicatedGameServer"
  metadata := metadata
  setMeta g m := { g with metadata := m }
  metadata_setMeta _ _ := rfl
  setMeta_metadata _ := rfl
  setMeta_setMeta _ _ _ := rfl

/-! ## Membership -/

/-- The collection that the instance is a member of. -/
def collection? (g : GameServer) : Option String := g.metadata.label? Labels.collectionName

/-- The collection that the instance was detached from. -/
def formerCollection? (g : GameServer) : Option String :=
  g.metadata.label? Labels.formerCollectionName

/-- The instance out of its collection, with a note of where it came from. -/
def detached (g : GameServer) (collection : String) : GameServer :=
  { g with metadata := { g.metadata with
      owners := []
      labels := (g.metadata.labels.erase Labels.collectionName).insert
        Labels.formerCollectionName collection } }

/-! ## Ports -/

/-- The container port is to be reached from outside the cluster. -/
def exposes (g : GameServer) (p : ContainerPort) : Bool :=
  g.spec.portsToExpose.contains p.containerPort

/-- The host ports of the exposed container ports. -/
def exposedHostPorts (g : GameServer) : List Port :=
  (g.spec.template.ports.filter g.exposes).filterMap (·.hostPort)

/-- The container port is exposed and no host port leads to it yet. -/
def awaitsHostPort (g : GameServer) (p : ContainerPort) : Bool :=
  g.exposes p && p.hostPort.isNone

/-- Some exposed container port has no host port yet. -/
def needsHostPorts (g : GameServer) : Bool := g.spec.template.ports.any g.awaitsHostPort

/-! ## Readiness -/

/-- The instance can take players. -/
def isReady (g : GameServer) : Bool :=
  g.status.health = .healthy ∧ g.status.podPhase = some .running ∧ !g.status.markedForDeletion

/-- The instance is marked for deletion and has no players. -/
def isDrained (g : GameServer) : Bool := g.status.markedForDeletion && g.status.activePlayers == 0

/-- Whether an update of an instance is one that the control plane acts on. -/
def changed (old new : GameServer) : Bool :=
  old.spec.template.images ≠ new.spec.template.images ∨
    old.status.health ≠ new.status.health ∨ old.status.podPhase ≠ new.status.podPhase ∨
    old.status.publicIp ≠ new.status.publicIp ∨ old.status.nodeName ≠ new.status.nodeName ∨
    old.status.activePlayers ≠ new.status.activePlayers ∨
    old.status.markedForDeletion ≠ new.status.markedForDeletion ∨
    old.metadata.labels ≠ new.metadata.labels

end GameServer

end GameFleet
