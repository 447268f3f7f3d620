import GameFleet.Naming
import GameFleet.Pass.Basic

/-!
# The pass of a collection

A pass over a collection (`Pass.collection`) sums up its members in its status, deals
with members that failed, and makes or detaches members until there are as many as asked
for. When a failure is found after the count of failures has reached its limit, the
collection needs intervention, and passes leave its members alone.
-/

namespace GameFleet.Pass

/-! ## Status -/

/-- What the members of a collection make of its status. -/
structure Summary where
  health : CollectionHealth
  podState : PodPhase
  available : UInt32
  deriving DecidableEq, Repr

namespace Summary

def of (members : List GameServer) : Summary :=
  ⟨Collection.healthOf members, Collection.podStateOf members, Collection.availableOf members⟩

/-- The health of a collection whose members come to a summary. The need for
intervention stays as long as the failures are at the limit. -/
def healthFor (s : Summary) (c : Collection) : CollectionHealth :=
  if c.status.health = .needsIntervention ∧ c.thresholdReached then .needsIntervention
  else s.health

/-- The collection with its status summed up, or nothing if it is already. -/
def change (s : Summary) (c : Collection) : Option Collection :=
  let health := s.healthFor c
  if c.status.health = health ∧ c.status.podState = some s.podState ∧
      c.status.available = s.available then none
  else some { c with status := { c.status with
    health := health, podState := some s.podState, available := s.available } }

/-- Nothing else is written than what is summed up. -/
theorem eq_of_change {s : Summary} {c c' : Collection} (h : s.change c = some c') :
    c' = { c with status := { c.status with
      health := s.healthFor c, podState := some s.podState, available := s.available } } := by
  unfold change at h
  simp only at h
  split at h
  · cases h
  · cases h
    rfl

/-- The members alone do not ask for intervention. -/
theorem health_of_ne (members : List GameServer) : (of members).health ≠ .needsIntervention := by
  change Collection.healthOf members ≠ _
  unfold Collection.healthOf
  split
  · next h _ => cases h <;> decide
  · decide

end Summary

/-! ## Failed members -/

/-- The member out of the collection, unless it is already. -/
def detach (collection : String) (g : GameServer) : Option GameServer :=
  if g.collection? = some collection then some (g.detached collection) else none

/-- The member out of the collection and marked for deletion, unless it is out
already. -/
def detachMarked (collection : String) (g : GameServer) : Option GameServer :=
  (detach collection g).map fun g => { g with status := { g.status with markedForDeletion := true } }

/-- Deals with a failed member, and says whether it did. -/
def handleFailure (context : PassContext) (c : Collection) (failed : Key) : Pass Bool := do
  match c.spec.failBehavior with
  | .remove =>
    let detached ← access
      (.modify context.retry .gameServer failed (detach c.metadata.name))
    return detached.isSome
  | .delete =>
    match ← ask (.delete .gameServer failed) with
    | .ok () => return true
    | .error cause => if cause.isNotFound then return false else throw (.store cause)

/-- Deals with failed members and counts them. -/
def handleAll (context : PassContext) (c : Collection) : List Key → Nat → Pass Nat
  | [], handled => return handled
  | failed :: rest, handled => do
    let done ← handleFailure context c failed
    handleAll context c rest (if done then handled + 1 else handled)

/-- The collection in need of intervention, unless it is already. -/
def intervene (c : Collection) : Option Collection :=
  if c.status.health = .needsIntervention then none
  else some { c with status := { c.status with health := .needsIntervention } }

theorem intervene_eq_none_iff {c : Collection} :
    intervene c = none ↔ c.status.health = .needsIntervention := by
  simp [intervene]

theorem eq_of_intervene {c c' : Collection} (h : intervene c = some c') :
    c.status.health ≠ .needsIntervention ∧
      c' = { c with status := { c.status with health := .needsIntervention } } := by
  unfold intervene at h
  split at h
  · cases h
  · next hne =>
    cases h
    exact ⟨hne, rfl⟩

/-- The collection with more failures counted, as far as the count goes. -/
def countFailures (handled : Nat) (c : Collection) : Collection :=
  { c with status := { c.status with
    timesFailed := Collection.countOf (c.status.timesFailed.toNat + handled) } }

/-- Asks for intervention once the failures are at the limit. -/
def escalate (context : PassContext) (c : Collection) : Pass Unit := do
  let key := Resource.key c
  let updated ← access (.modify context.retry .collection key intervene)
  if c.status.health ≠ .needsIntervention ∧ updated.isSome then
    record .warning .collection key .needsIntervention
      (toString c.status.timesFailed ++ " failures reached the limit of " ++
        toString c.spec.maxFailures)

/-- Deals with the members that failed. -/
def handleFailures (context : PassContext) (c : Collection) (failed : List Key) :
    Pass Unit := do
  if c.thresholdReached then escalate context c
  else
    let handled ← handleAll context c failed 0
    if handled = 0 then return ()
    let key := Resource.key c
    let _ ← access (.modify context.retry .collection key fun latest =>
      some (countFailures handled latest))
    record .warning .collection key .failedInstances
      ("Handled " ++ toString handled ++ " failed instances with behavior " ++
        Named.name c.spec.failBehavior)

/-! ## Scaling -/

/-- Makes a member, with a host port for every exposed port. -/
def createMember (c : Collection) : Pass Unit := do
  let suffix ← ask (.suffix Naming.suffixLength)
  let g := c.newMember (Naming.generated c.metadata.name suffix)
  let key := Resource.key g
  let taken ← allocate key (g.spec.template.ports.countP g.exposes) []
  let template := g.spec.template.filled g.exposes taken
  match ← ask (.create .gameServer { g with spec := { g.spec with template } }) with
  | .ok _ => return ()
  | .error cause =>
    release key taken
    throw (.store cause)

def createMembers (c : Collection) : Nat → Pass Unit
  | 0 => return ()
  | n + 1 => do
    createMember c
    createMembers c n

def scaleOut (c : Collection) (count : Nat) : Pass Unit := do
  createMembers c count
  record .normal .collection (Resource.key c) .replicasIncreased
    ("Created " ++ toString count ++ " instances")

/-- Detaches members and marks them for deletion. -/
def detachAll (context : PassContext) (collection : String) : List Key → Pass Unit
  | [] => return ()
  | key :: rest => do
    let _ ← access (.modify context.retry .gameServer key (detachMarked collection))
    detachAll context collection rest

/-- Detaches so many members picked at random. They are deleted when their players have
left. -/
def scaleIn (context : PassContext) (c : Collection) (members : List GameServer) (count : Nat) :
    Pass Unit := do
  let picked ← ask (.pick members.length count)
  detachAll context c.metadata.name (picked.filterMap fun i => (members[i]?).map Resource.key)
  record .normal .collection (Resource.key c) .replicasDecreased
    ("Marked " ++ toString count ++ " instances for deletion")

/-- Makes or detaches members until there are as many as asked for. -/
def scale (context : PassContext) (c : Collection) (members : List GameServer) : Pass Unit :=
  let desired := c.spec.replicas.toNat
  if members.length < desired then scaleOut c (desired - members.length)
  else if desired < members.length then scaleIn context c members (members.length - desired)
  else
    record .normal .collection (Resource.key c) .synced
      (toString members.length ++ " replicas in sync")

/-! ## The pass -/

/-- A pass over a collection. The members are read from the store, since the cache may
not have those yet that the last pass made. -/
def collection (context : PassContext) (key : Key) : Pass Unit := do
  match ← cached .collection key with
  | none => return ()
  | some seen =>
    if Resource.isTerminating seen then return ()
    let members ← access (.list .gameServer seen.metadata.ns seen.memberSelector)
    match ← access (.modify context.retry .collection key (Summary.of members).change) with
    | none => return ()
    | some c =>
      let failed := members.filter fun g => g.status.health = .failed
      if !failed.isEmpty then handleFailures context c (failed.map Resource.key)
      else if c.status.health = .needsIntervention then return ()
      else scale context c members

end GameFleet.Pass
