import GameFleet.Pass.Basic
import GameFleet.Workload

/-!
# The pass of an instance

A pass over an instance (`Pass.gameServer`) sees to it that it has a pod, keeps what is
known of the pod and its node on the instance, and deletes the instance when it is
drained. Exposed ports get host ports before there is a pod.
-/

namespace GameFleet.Pass

/-- Deletes a drained instance. -/
def deleteDrained (key : Key) : Pass Unit := do
  match ← ask (.delete .gameServer key) with
  | .ok () =>
    record .normal .gameServer key .instanceDeleted "Marked for deletion with no active players"
  | .error cause => if cause.isNotFound then return () else throw (.store cause)

/-- Gives host ports to the exposed ports of an instance that have none. -/
def assignHostPorts (g : GameServer) : Pass GameServer := do
  let key := Resource.key g
  let wants := g.awaitsHostPort
  let taken ← allocate key (g.spec.template.ports.countP wants) []
  let template := g.spec.template.filled wants taken
  match ← ask (.update .gameServer { g with spec := { g.spec with template } }) with
  | .ok updated => return updated
  | .error cause =>
    release key taken
    throw (.store cause)

/-- Makes the pod of an instance. One that is there already will do. -/
def createPod (context : PassContext) (g : GameServer) : Pass Unit := do
  let g ← if g.needsHostPorts then assignHostPorts g else pure g
  match ← ask (.create .pod (Pod.ofGameServer g context.callbacks)) with
  | .ok pod =>
    record .normal .gameServer (Resource.key g) .podCreated ("Created pod " ++ pod.metadata.name)
  | .error cause => if cause.isAlreadyExists then return () else throw (.store cause)

/-- What an instance has to know of its pod. -/
structure Observation where
  phase : PodPhase
  publicIp : Option String
  nodeName : Option String
  deriving DecidableEq, Repr

/-- The instance with what was observed, or nothing if it has it already. -/
def Observation.change (o : Observation) (g : GameServer) : Option GameServer :=
  if g.status.podPhase = some o.phase ∧ g.status.publicIp = o.publicIp ∧
      g.status.nodeName = o.nodeName then none
  else some { g with status := { g.status with
    podPhase := some o.phase, publicIp := o.publicIp, nodeName := o.nodeName } }

theorem Observation.change_eq_none_iff {o : Observation} {g : GameServer} :
    o.change g = none ↔ g.status.podPhase = some o.phase ∧ g.status.publicIp = o.publicIp ∧
      g.status.nodeName = o.nodeName := by
  simp [change]

/-- Nothing else is written than what was observed. -/
theorem Observation.eq_of_change {o : Observation} {g g' : GameServer}
    (h : o.change g = some g') : g' = { g with status := { g.status with
      podPhase := some o.phase, publicIp := o.publicIp, nodeName := o.nodeName } } := by
  unfold change at h
  split at h
  · cases h
  · cases h
    rfl

/-- The address of a node. -/
def addressOf (node : String) : Pass String := do
  match ← cached .node ⟨"", node⟩ with
  | none => throw (.nodeNotFound node)
  | some found =>
    match found.reachableAddress? with
    | none => throw (.noNodeAddress node)
    | some address => return address

/-- What is to be observed of a pod. -/
def observationOf (pod : Pod) : Pass Observation := do
  match pod.spec.nodeName.filter (· ≠ "") with
  | none => return ⟨pod.status.phase, none, none⟩
  | some node => return ⟨pod.status.phase, some (← addressOf node), some node⟩

/-- Writes what is observed of the pod to the instance. -/
def observePod (context : PassContext) (g : GameServer) (pod : Pod) : Pass Unit := do
  let observation ← observationOf pod
  if (observation.change g).isNone then return ()
  let _ ← access (.modify context.retry .gameServer (Resource.key g) observation.change)

/-- A pass over an instance. -/
def gameServer (context : PassContext) (key : Key) : Pass Unit := do
  match ← cached .gameServer key with
  | none => return ()
  | some g =>
    if Resource.isTerminating g then return ()
    else if g.isDrained then deleteDrained key
    else
      let pods ← cachedList .pod key.ns (.ofLabel Labels.gameServerName key.name)
      match Pod.select? pods with
      | none => createPod context g
      | some pod => observePod context g pod

end GameFleet.Pass
