import GameFleet.Drill.Perform

/-!
# Transcripts of drills

After each step the drill is reported on: the outcome, the events since the last report,
the keys that wait in the queues, the changes of watched kinds, and the state if it is
another than the last time (`Drill.step`).

A state lists the objects. A census counts instances and pods that look alike instead,
since those may have drawn names.
-/

namespace GameFleet

open Performance (version texts)

namespace Drill

/-! ## State -/

/-- Container ports with their host ports. -/
def portRows (ports : List ContainerPort) : Json :=
  .array (ports.map fun p => .array [.nat p.containerPort.toNat, Form.write p.hostPort])

/-- What the state says of an instance besides its key, version and ports. -/
def summary (g : GameServer) : Json :=
  .array [Form.write g.collection?, Form.write g.formerCollection?,
    texts (g.metadata.owners.map fun r => r.kind ++ "/" ++ r.name),
    Form.write g.status.health, Form.write g.status.state, Form.write g.status.podPhase,
    Form.write g.status.publicIp, Form.write g.status.nodeName,
    Form.write g.status.activePlayers, .bool g.status.markedForDeletion]

def keyText {α : Type} [Resource α] (a : α) : Json := .text (Resource.key a).toText

def gameServerRow (g : GameServer) : Json :=
  .array [keyText g, version g, summary g, portRows g.spec.template.ports]

def podRow (p : Pod) : Json :=
  .array [keyText p, version p, Form.write (p.metadata.label? Labels.gameServerName),
    Form.write p.status.phase, Form.write p.spec.nodeName,
    portRows (p.spec.containers.flatMap (·.ports))]

/-- The row of a collection. Versions are left out where they depend on the order of
passes. -/
def collectionRow (versions : Bool) (c : Collection) : Json :=
  .array [keyText c, if versions then version c else .null, Form.write c.spec.replicas,
    Form.write c.status.health, Form.write c.status.podState, Form.write c.status.available,
    Form.write c.status.timesFailed, Form.write (c.spec.autoscaler.bind (·.lastScale))]

/-- The line of an instance in a census. -/
def gameServerLine (g : GameServer) : String :=
  g.metadata.ns ++ " " ++ (summary g).render ++ " ports=" ++ toString g.exposedHostPorts.length

/-- Some instance, in any namespace, has the name that the pod is labelled with. -/
def isBound (gameServers : Objects GameServer) (p : Pod) : Bool :=
  match p.metadata.label? Labels.gameServerName with
  | some name => gameServers.keys.any fun k => k.name == name
  | none => false

/-- The line of a pod in a census. -/
def podLine (gameServers : Objects GameServer) (p : Pod) : String :=
  Named.name p.status.phase ++ " " ++ p.spec.nodeName.getD "-" ++ " bound=" ++
    (if isBound gameServers p then "true" else "false")

/-- Lines with how often each occurs. -/
def counted (lines : List String) : Json :=
  .object ((Table.tally lines).entries.map fun e => (e.1, .nat e.2))

/-- The objects of a plane. -/
def objectsShown (census versions : Bool) (p : Plane) : List (String × Json) :=
  let gameServers := p.gameServers.store.objects
  let pods := p.pods.store.objects
  let collections := p.collections.store.objects.values.map (collectionRow versions)
  ("cols", .array collections) ::
    if census then
      [("gs", counted (gameServers.values.map gameServerLine)),
        ("pods", counted (pods.values.map (podLine gameServers)))]
    else
      [("gs", .array (gameServers.values.map gameServerRow)),
        ("pods", .array (pods.values.map podRow)), ("nodes", .nat p.nodes.store.objects.size)]

/-- A state, in which `free` says how many ports are free. -/
structure State where
  objects : List (String × Json)
  free : Except RegistryError Nat

/-- A text that tells states apart. -/
def State.text (s : State) : String :=
  (Json.object s.objects).render ++
    match s.free with
    | .ok count => toString count
    | .error cause => cause.message

/-- The state, if it is not the one that was reported last. -/
def newState : StateM Drill (Option State) := do
  let free ← onPlane (Plane.onRegistry (·.available))
  let d ← get
  let state : State := ⟨objectsShown d.census (d.mode ≠ .fleet) d.plane, free⟩
  if d.shown = some state.text then return none
  else
    set { d with shown := some state.text }
    return some state

/-! ## What happened -/

/-- An event. A census does not tell instances apart. -/
def eventRow (census : Bool) (e : Event) : Json :=
  let type : Json := .text (Named.name e.type)
  let reason : Json := .text (Named.name e.reason)
  if census ∧ e.kind = Resource.kind GameServer then .array [type, .text e.kind, reason]
  else .array [type, .text e.kind, .text e.object.toText, reason, .text e.message]

/-- The events since the last report. -/
def newEvents : StateM Drill (List Json) := do
  let d ← get
  let rows := (d.plane.events.drop d.told).map (eventRow d.census)
  set { d with told := d.plane.events.length }
  if d.census then
    return ((rows.map fun row => (row.render, row)).mergeSort
      fun a b => decide (a.1 ≤ b.1)).map (·.2)
  else return rows

def versionRow {α : Type} [Resource α] (a : α) : Json := .array [keyText a, version a]

def readingRow? {α : Type} [Resource α] : Reading (Change α) → Option Json
  | .item (.added a) => some (.array [.text "Added", versionRow a])
  | .item (.updated old a) => some (.array [.text "Updated", versionRow a, version old])
  | .item (.deleted a) => some (.array [.text "Deleted", versionRow a])
  | .lagged missed => some (.array [.text "Lagged", .nat missed])
  | _ => none

/-- The changes of a kind since the last report, if it is watched. -/
def newChanges (kind : Kind) : StateM Drill (List Json) := do
  let d ← get
  match d.watched.lookup kind with
  | none => return []
  | some cursor =>
    let (readings, cursor) := (d.plane.shelf kind).feed.drain cursor
    set { d with watched := (kind, cursor) :: d.watched.filter (·.1 ≠ kind) }
    return readings.filterMap readingRow?

/-- The keys that wait for a reconciler, in their order. They are taken out. -/
def waiting (r : Reconciler) : StateM Drill (List String) := do
  let ks ← onHub (·.drain r)
  return ks.mergeSort fun a b => decide (a ≤ b)

/-! ## Reports -/

/-- What is reported after a step. -/
structure Entry where
  outcome : StepOutcome
  events : List Json
  queued : List (Reconciler × List String)
  changes : List (Kind × List Json)
  state : Option State

/-- How long a drill goes on by itself after a step, in milliseconds. -/
def pause : Nat := 20

/-- The outcome as a fleet at work shows it, which is only whether the step failed. -/
def StepOutcome.atWork : StepOutcome → StepOutcome
  | .failure cause => .failure cause
  | _ => .nothing

/-- A whole report. -/
def fullEntry (outcome : StepOutcome) (queued : List (Reconciler × List String)) :
    StateM Drill Entry := do
  let events ← newEvents
  let changes ← Hub.kinds.mapM fun kind => do return (kind, ← newChanges kind)
  return ⟨outcome, events, queued, changes, ← newState⟩

/-- Does a step, lets the drill go on, and reports. A fleet at work is reported on when it
has settled. -/
def step (s : Step) : StateM Drill Entry := do
  let outcome ← s.perform
  match (← get).mode with
  | .direct => fullEntry outcome []
  | .wired =>
    modify fun d => { d with fleet := d.fleet.advance pause }
    let queued ← (Named.all : List Reconciler).mapM fun r => do return (r, ← waiting r)
    fullEntry outcome queued
  | .fleet =>
    modify fun d => { d with fleet := d.fleet.advance pause }
    let state ← match s with
      | .settle _ => newState
      | _ => pure none
    return ⟨StepOutcome.atWork outcome, [], [], [], state⟩

/-- Does the steps of a drill, and reports on each. -/
def transcript : List Step → StateM Drill (List Entry)
  | [] => return []
  | s :: rest => do
    let entry ← step s
    return entry :: (← transcript rest)

end Drill

end GameFleet
