import GameFleet.Pass.Program
import GameFleet.Retry
import GameFleet.Settings

/-!
# Passes

A `Pass` is a program that may fail with a `PassError`. The requests of a program are
its operations here, and `Access.modify` is the one that all changes of stored objects go
through: read, change, write back, and again if someone else wrote in between.
-/

namespace GameFleet

/-- Why a pass failed. -/
inductive PassError where
  | store (cause : StoreError)
  | ports (cause : RegistryError)
  /-- The node that a pod is on is not in the cache. -/
  | nodeNotFound (node : String)
  /-- The node has no address that it can be reached at. -/
  | noNodeAddress (node : String)
  deriving DecidableEq, Repr

def PassError.message : PassError → String
  | .store cause => cause.message
  | .ports cause => cause.message
  | .nodeNotFound node => "node " ++ node ++ " not found"
  | .noNodeAddress node => "node " ++ node ++ " has no reachable address"

/-- What passes are set up with. -/
structure PassContext where
  callbacks : Callbacks
  retry : Retry
  deriving DecidableEq, Repr

instance : Inhabited PassContext := ⟨⟨default, default⟩⟩

/-- A program that may fail with an error of the store. -/
abbrev Access (α : Type) := ExceptT StoreError Program α

/-- A program that may fail. -/
abbrev Pass (α : Type) := ExceptT PassError Program α

namespace Access

/-- Asks for something that a store may refuse. -/
def ask {α : Type} (p : Program (Except StoreError α)) : Access α := p

def get (kind : Kind) (key : Key) : Access (Option kind.Obj) := ask (.ask (.get kind key))

def list (kind : Kind) (ns : String) (selector : Selector) : Access (List kind.Obj) :=
  ask (.ask (.list kind ns selector))

def create (kind : Kind) (object : kind.Obj) : Access kind.Obj :=
  ask (.ask (.create kind object))

def update (kind : Kind) (object : kind.Obj) : Access kind.Obj :=
  ask (.ask (.update kind object))

def delete (kind : Kind) (key : Key) : Access Unit := ask (.ask (.delete kind key))

/-- Reads an object and lets `edit` change the copy, which is written back if `edit` says
so. The result is the copy, or what was stored of it. -/
def editOnce (kind : Kind) (key : Key) (edit : kind.Obj → kind.Obj × Bool) :
    Access (Option kind.Obj) := do
  match ← get kind key with
  | none => return none
  | some object =>
    match edit object with
    | (copy, false) => return some copy
    | (copy, true) => return some (← update kind copy)

/-- The result lost a race to another write. -/
def isConflict {α : Type} : Except StoreError α → Bool
  | .error e => e.isConflict
  | .ok _ => false

/-- Edits an object, reading it again after each conflict. -/
def edit (retry : Retry) (kind : Kind) (key : Key) (edit : kind.Obj → kind.Obj × Bool) :
    Access (Option kind.Obj) :=
  retry.run (m := Program) isConflict (fun failures => .ask (.pause failures))
    (editOnce kind key edit)

/-- Changes an object. `change` gives the object to write, or nothing if there is nothing
to change. The result is the object as it is stored, if it is. -/
def modify (retry : Retry) (kind : Kind) (key : Key) (change : kind.Obj → Option kind.Obj) :
    Access (Option kind.Obj) :=
  edit retry kind key fun object =>
    match change object with
    | some changed => (changed, true)
    | none => (object, false)

end Access

namespace Pass

/-- An access as part of a pass. -/
def access {α : Type} (p : Access α) : Pass α := p.adapt .store

/-- Asks for something that cannot be refused. -/
def ask (request : Request) : Pass request.Answer := ExceptT.lift (.ask request)

/-- An object as the cache has it. -/
def cached (kind : Kind) (key : Key) : Pass (Option kind.Obj) :=
  access (Access.ask (.ask (.cached kind key)))

/-- Objects as the cache has them. -/
def cachedList (kind : Kind) (ns : String) (selector : Selector) : Pass (List kind.Obj) :=
  access (Access.ask (.ask (.cachedList kind ns selector)))

/-- Records an event about an object. -/
def record (type : EventType) (kind : Kind) (object : Key) (reason : Reason)
    (message : String) : Pass Unit :=
  ask (.record ⟨type, Resource.kind kind.Obj, object, reason, message⟩)

/-- Gives ports back. That this fails changes nothing for a pass. -/
def release (owner : Key) (ports : List Port) : Pass Unit := do
  let _ ← ask (.release owner ports)

/-- So many host ports for `owner`, after those already taken, or none: when there are
not enough, those taken are given back. -/
def allocate (owner : Key) : Nat → List Port → Pass (List Port)
  | 0, taken => return taken
  | n + 1, taken => do
    match ← ask (.allocate owner) with
    | .ok port => allocate owner n (taken ++ [port])
    | .error cause =>
      release owner taken
      throw (.ports cause)

end Pass

end GameFleet
