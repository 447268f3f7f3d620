import GameFleet.Drill.Basic
import GameFleet.Drill.Step

/-!
# Performing the steps of a drill

`Step.perform` does a step and says what it came to, its `StepOutcome`: a write comes to the
version that was stored, a look at objects to the objects or their keys, and what has no
result to `null`.
-/

namespace GameFleet

/-- What a step comes to. -/
inductive StepOutcome where
  | value (j : Json)
  | failure (cause : DrillError)
  /-- The outcomes of passes that were made one after the other. -/
  | several (outcomes : List StepOutcome)
  /-- The outcome of an edit, and how often a copy was edited. -/
  | edited (count : Nat) (outcome : StepOutcome)

/-- What a step does to a drill and comes to. -/
abbrev Performance := StateM Drill StepOutcome

namespace StepOutcome

def nothing : StepOutcome := .value .null

/-- The outcome of something that may fail, with its value written. -/
def of {ε α : Type} (wrap : ε → DrillError) (write : α → Json) : Except ε α → StepOutcome
  | .ok a => .value (write a)
  | .error cause => .failure (wrap cause)

def failed : StepOutcome → Bool
  | .failure _ => true
  | _ => false

end StepOutcome

namespace Performance

/-- A change that has no result. -/
def quiet (op : StateM Drill Unit) : Performance := do
  op
  return .nothing

def version {α : Type} [Resource α] (a : α) : Json := .nat (Resource.version a)

def keys {α : Type} [Resource α] (as : List α) : Json :=
  .array (as.map fun a => .text (Resource.key a).toText)

def texts (ss : List String) : Json := .array (ss.map .text)

def orNull {α : Type} (write : α → Json) (a : Option α) : Json := (a.map write).getD .null

def null {α : Type} (_ : α) : Json := .null

/-- An access to a store. -/
def access {α : Type} (write : α → Json) (p : Access α) : Performance := do
  return .of .store write (← Drill.run p.run)

def pass {α : Type} (write : α → Json) (p : Pass α) : Performance := do
  return .of .pass write (← Drill.run p.run)

def scene (p : Sample.Scene Unit) : Performance := do
  return .of .mishap null (← Drill.run p.run)

/-- A call to the port registry. -/
def call {α : Type} (write : α → Json) (request : StateM Fleet (Except RegistryError α)) :
    Performance := do
  return .of .ports write (← Drill.onFleet request)

/-- Does something so many times until it fails. The outcome is the last one. -/
def repeated (op : Nat → Performance) : Nat → Performance
  | 0 => return .nothing
  | 1 => op 0
  | n + 2 => do
    let outcome ← repeated op (n + 1)
    if outcome.failed then return outcome else op (n + 1)

end Performance

open Performance

/-! ## Steps on one store -/

/-- A copy of an object with a number after the name. The object itself has number zero. -/
def StoreStep.copy (kind : Kind) (object : kind.Obj) (n : Nat) : kind.Obj :=
  if n = 0 then object
  else Resource.mapMeta (fun m => { m with name := m.name ++ "-" ++ toString n }) object

/-- Edits an object by a patch. An object that the patch would spoil is left. -/
def StoreStep.editBy (kind : Kind) (merge : Json) (skip : Bool) (a : kind.Obj) :
    kind.Obj × Bool :=
  match Plane.patched kind merge a with
  | .ok a => (a, !skip)
  | .error _ => (a, false)

/-- Does a step on the store of a kind. -/
def StoreStep.perform (kind : Kind) : StoreStep kind → Performance
  | .create object times =>
    repeated (fun n => access version (.create kind (copy kind object n))) times
  | .update object => access version (.update kind object)
  | .delete key => access null (.delete kind key)
  | .read key => access (orNull Form.write) (.get kind key)
  | .list ns? selector => do
    return .of .store keys (← Drill.onPlane (Plane.onShelf kind (·.list ns? selector)))
  | .size => do
    let objects := ((← get).plane.shelf kind).store.objects
    return .value (.array [.nat objects.size, .bool objects.isEmpty])
  | .patch key merge times =>
    repeated (fun _ => do
      return .of .patch version (← Drill.onPlane (Plane.patch kind key merge))) times
  | .edit key merge skip => do
    let program := Access.edit (← get).context.retry kind key (editBy kind merge skip)
    let (result, count) ← Drill.onFleet (Fleet.runCounting program.run)
    return .edited count (.of .store (orNull version) result)
  | .watch =>
    quiet (modify fun d => { d with
      watched := (kind, (d.plane.shelf kind).feed.tail) :: d.watched.filter (·.1 ≠ kind) })
  | .freeze => quiet (Drill.changePlane fun p => p.setShelf kind (p.shelf kind).freeze)
  | .thaw => quiet (Drill.changePlane fun p => p.setShelf kind (p.shelf kind).thaw)
  | .disturb lookups d => quiet (Drill.changePlane fun p => p.disturb kind lookups d)

/-! ## Other steps -/

/-- The access that makes a report about an instance. -/
def StatusReport.make (retry : Retry) (key : Key) : StatusReport → Access GameServer
  | .players count => Report.players retry key count
  | .health value => Report.health retry key value
  | .state value => Report.state retry key value
  | .mark marked => Report.mark retry key marked

namespace Step

/-- A pass over a key. Only a pass of an autoscaler has a result, the step it made. -/
def reconcileOutcome (context : PassContext) (who : Reconciler) (key : Key) : Performance :=
  match who with
  | .autoscaler => pass (orNull Form.write) (Pass.autoscaler key)
  | _ => pass null (who.pass context key)

/-- Makes passes over instances, one after the other. -/
def passAll (context : PassContext) : List Key → StateM Drill (List StepOutcome)
  | [] => return []
  | key :: rest => do
    let outcome ← pass null (Pass.gameServer context key)
    return outcome :: (← passAll context rest)

/-- Does something with the instances of all namespaces. -/
def withAll (op : List GameServer → Performance) : Performance := do
  match ← Drill.onPlane (Plane.onShelf .gameServer (·.list none .everything)) with
  | .error cause => return .failure (.store cause)
  | .ok found => op found

/-- Makes a pass over every instance. In a census only the failures are counted. -/
def passOverAll : Performance :=
  withAll fun found => do
    let d ← get
    let outcomes ← passAll d.context (found.map Resource.key)
    if d.census then
      return .value (.object [("reconciled", .nat outcomes.length),
        ("errors", .nat (outcomes.countP (·.failed)))])
    else return .several outcomes

/-- Deletes an instance, and cleans up after it as it was before. -/
def removal (key : Key) : Access Unit := do
  let found ← Access.get .gameServer key
  Access.delete .gameServer key
  match found with
  | some g => ExceptT.lift (Cleanup.gameServer g)
  | none => return ()

def writeFindings (f : Sample.Findings) : Json :=
  .object [("gs", .bool f.gameServer), ("col", .bool f.collection), ("members", .nat f.members),
    ("pods", .nat f.pods), ("all", .nat f.all)]

def writeInt (n : Int) : Json :=
  .number (if n < 0 then .negative n.natAbs else .natural n.natAbs)

/-- Does a step. -/
def perform (step : Step) : Performance := do
  let d ← get
  let context := d.context
  let retry := context.retry
  match step with
  | .store _ step => step.perform
  | .refused cause => return .failure (.refused cause)
  | .start => quiet (modify fun d => { d with fleet := d.fleet.start (d.mode = .fleet) })
  | .settle span => quiet (modify fun d => { d with fleet := d.fleet.advance span })
  | .reconcile who key => reconcileOutcome context who key
  | .sync who entry => pass null (who.sync context entry)
  | .syncAll => passOverAll
  | .reconcilers => return .value (texts ((Named.all : List Reconciler).map Named.name))
  | .report key what => access version (what.make retry key)
  | .ready ns =>
    access (fun found => if d.census then .nat found.length else keys found) (Report.ready ns)
  | .releaseInstance g => quiet (Drill.run (Cleanup.gameServer g))
  | .releaseCollection c => quiet (Drill.run (Cleanup.collection c))
  | .removeInstance key => access null (removal key)
  | .apply manifest => return .of .seed null (← Drill.run manifest.apply.run)
  | .allocate owner => call (fun p => .nat p.toNat) (Fleet.serve (.allocate owner))
  | .release owner ports => call .nat (Fleet.serve (.release owner ports))
  | .stopPorts => quiet (Drill.changePlane fun p => { p with registry := p.registry.stop })
  | .setClock clock => do
    Drill.changePlane fun p => { p with clock }
    return .value (writeInt clock.second)
  | .advanceClock millis => do
    let clock := d.plane.clock.add (millis * 1000000)
    Drill.changePlane fun p => { p with clock }
    return .value (writeInt clock.millis)
  | .reasons object =>
    return .value (texts ((Event.reasonsFor d.plane.events object).map Named.name))
  | .log => return .nothing
  | .node name external? internal => scene (Sample.createNode name external? internal)
  | .sampleGameServer name => access version (.create .gameServer (Sample.gameServer name))
  | .samplePod name => access version (.create .pod (Sample.pod name))
  | .sampleCollection c => access version (.create .collection c)
  | .converge c players => scene (Sample.converge context c players)
  | .markReady collection => scene (Sample.markReady collection)
  | .runPod name host => scene (Sample.runPod name host)
  | .findings name => return .value (writeFindings (← Drill.run (Sample.findings name)))
  | .runPods host => quiet (Drill.changePlane fun p => p.runPods host)
  | .memberHealth collection health count? =>
    access null (Sample.reportHealth retry collection health count?)
  | .memberPlayers collection players count? =>
    access null (Sample.reportPlayers retry collection players count?)
  | .markedPlayers players =>
    withAll fun found => access null (Sample.reportMarked retry players found)

end Step

end GameFleet
