import GameFleet.Pass.Collections
import GameFleet.Pass.Reports
import GameFleet.Workload

/-!
# A sample fleet

Objects to try a control plane on, all in one namespace, and programs that play the parts
of those around it: the operator who makes a node, the orchestrator that runs a pod, and
the game servers that report.
-/

namespace GameFleet.Sample

/-! ## Objects -/

def ns : String := "default"

/-- The port that players come in by. -/
def gamePort : Port := 7777

/-- One container with the game port. -/
def template : Template :=
  ⟨[⟨"server", "example/arena:1.0", ⟨none, none⟩, [.new gamePort .udp], []⟩]⟩

/-- An instance in no collection. -/
def gameServer (name : String) : GameServer := ⟨.new ns name, ⟨template, [gamePort]⟩, .initial⟩

/-- The pod of the instance of a name. -/
def pod (name : String) : Pod := .ofGameServer (gameServer name) .standard

/-- How many failures the collections here tolerate, if nothing else is said. -/
def maxFailures : UInt32 := 5

def collection (name : String) (replicas : UInt32) (failBehavior : FailBehavior)
    (maxFailures : UInt32) (autoscaler : Option Autoscaler) : Collection where
  metadata := .new ns name
  spec := ⟨replicas, template, [gamePort], failBehavior, maxFailures, autoscaler⟩
  status := .initial

def node (name : String) (external? : Option String) (internal : String) : Node where
  metadata := .new "" name
  status := ⟨⟨.internal, internal⟩ :: (external?.map fun a => ⟨.external, a⟩).toList⟩

/-! ## Failures -/

/-- What went wrong around the control plane. -/
inductive Mishap where
  | nodeNotCreated (name : String) (cause : StoreError)
  | noPod (name : String)
  | podNotUpdated (name : String) (cause : StoreError)
  | memberNotReady (member : Key) (cause : StoreError)
  | collectionNotCreated (collection : Key) (cause : StoreError)
  | notScaled (collection : Key) (cause : PassError)
  | playersNotSet (cause : StoreError)
  | notReconciled (collection : Key) (cause : PassError)
  deriving DecidableEq, Repr

def Mishap.message : Mishap → String
  | .nodeNotCreated name cause => "failed to create node " ++ name ++ ": " ++ cause.message
  | .noPod name => "no pod for " ++ name
  | .podNotUpdated name cause => "failed to update pod " ++ name ++ ": " ++ cause.message
  | .memberNotReady member cause =>
    "failed to mark " ++ member.toText ++ " ready: " ++ cause.message
  | .collectionNotCreated collection cause =>
    "failed to create collection " ++ collection.toText ++ ": " ++ cause.message
  | .notScaled collection cause =>
    "failed to scale " ++ collection.toText ++ ": " ++ cause.message
  | .playersNotSet cause => "failed to set players: " ++ cause.message
  | .notReconciled collection cause =>
    "failed to reconcile " ++ collection.toText ++ ": " ++ cause.message

/-- A program that may end in a mishap. -/
abbrev Scene (α : Type) := ExceptT Mishap Program α

/-- An access whose failure is a mishap. -/
def orElse {α : Type} (mishap : StoreError → Mishap) (p : Access α) : Scene α := p.adapt mishap

/-- A pass whose failure is a mishap. -/
def passOrElse {α : Type} (mishap : PassError → Mishap) (p : Pass α) : Scene α := p.adapt mishap

/-! ## Reading -/

/-- An object of the namespace. A store that cannot be read counts as empty. -/
def find (kind : Kind) (name : String) : Program (Option kind.Obj) := do
  match ← Program.ask (.get kind ⟨ns, name⟩) with
  | .ok found => return found
  | .error _ => return none

/-- Objects of the namespace. A store that cannot be read counts as empty. -/
def list (kind : Kind) (selector : Selector) : Program (List kind.Obj) := do
  match ← Program.ask (.list kind ns selector) with
  | .ok found => return found
  | .error _ => return []

/-- The members of a collection. -/
def members (collection : String) : Program (List GameServer) :=
  list .gameServer (.ofLabel Labels.collectionName collection)

/-- What is found under a name. -/
structure Findings where
  gameServer : Bool
  collection : Bool
  members : Nat
  pods : Nat
  /-- How many instances there are in all. -/
  all : Nat
  deriving DecidableEq, Repr

def findings (name : String) : Program Findings := do
  let gameServer ← find .gameServer name
  let collection ← find .collection name
  let members ← members name
  let pods ← list .pod (.ofLabel Labels.gameServerName name)
  let all ← list .gameServer .everything
  return ⟨gameServer.isSome, collection.isSome, members.length, pods.length, all.length⟩

/-! ## The orchestrator -/

def createNode (name : String) (external? : Option String) (internal : String) : Scene Unit := do
  let _ ← orElse (.nodeNotCreated name) (.create .node (node name external? internal))

/-- The pod on a node, running. -/
def running (p : Pod) (node : String) : Pod :=
  { p with spec := { p.spec with nodeName := some node }, status := ⟨.running⟩ }

/-- Runs the pod of an instance on a node. -/
def runPod (name node : String) : Scene Unit := do
  match ← ExceptT.lift (find .pod name) with
  | none => throw (.noPod name)
  | some pod =>
    let _ ← orElse (.podNotUpdated name) (.update .pod (running pod node))

/-! ## Game servers -/

/-- Makes instances healthy and their pods run. Those that failed stay as they are. -/
def makeReady : List GameServer → Scene Unit
  | [] => return ()
  | g :: rest => do
    if g.status.health ≠ .failed then
      let ready := { g with status := { g.status with
        health := .healthy, podPhase := some .running } }
      let _ ← orElse (.memberNotReady ⟨ns, g.metadata.name⟩) (.update .gameServer ready)
    makeReady rest

/-- Makes the members of a collection ready. -/
def markReady (collection : String) : Scene Unit := do
  makeReady (← ExceptT.lift (members collection))

/-- Sets the players of instances, as far as there are counts. -/
def setPlayers : List GameServer → List UInt32 → Scene Unit
  | g :: rest, count :: counts => do
    let _ ← orElse .playersNotSet
      (Report.players .standard ⟨ns, g.metadata.name⟩ count)
    setPlayers rest counts
  | _, _ => return ()

/-- Creates a collection and brings it to where its members are ready and have players,
and its status says so. -/
def converge (context : PassContext) (c : Collection) (players : List UInt32) : Scene Unit := do
  let key : Key := ⟨ns, c.metadata.name⟩
  let _ ← orElse (.collectionNotCreated key) (.create .collection c)
  passOrElse (.notScaled key) (Pass.collection context key)
  markReady c.metadata.name
  setPlayers (← ExceptT.lift (members c.metadata.name)) players
  passOrElse (.notReconciled key) (Pass.collection context key)

/-- Makes one report for each of some instances. -/
def reportAll (report : Key → Access GameServer) : List GameServer → Access Unit
  | [] => return ()
  | g :: rest => do
    let _ ← report (Resource.key g)
    reportAll report rest

/-- The members that a collection has by its key. -/
def membersOf (collection : Key) : Access (List GameServer) :=
  .list .gameServer collection.ns (.ofLabel Labels.collectionName collection.name)

/-- Reports the health of the first members of a collection that have another. -/
def reportHealth (retry : Retry) (collection : Key) (health : Health) (count? : Option Nat) :
    Access Unit := do
  let others := (← membersOf collection).filter fun g => g.status.health ≠ health
  reportAll (Report.health retry · health) (others.take (count?.getD others.length))

/-- Reports the players of the first members of a collection. -/
def reportPlayers (retry : Retry) (collection : Key) (players : UInt32)
    (count? : Option Nat) : Access Unit := do
  let members ← membersOf collection
  reportAll (Report.players retry · players) (members.take (count?.getD members.length))

/-- Reports the players of those instances that are marked for deletion. -/
def reportMarked (retry : Retry) (players : UInt32) (found : List GameServer) : Access Unit :=
  reportAll (Report.players retry · players) (found.filter (·.status.markedForDeletion))

end GameFleet.Sample
