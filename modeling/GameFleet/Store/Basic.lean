import GameFleet.Resource.Meta

/-!
# Object stores

A `Store` holds the objects of one kind by their keys and counts its writes. Each write
that stores an object stamps it with its number, the object's version. An update has to
carry the version that is stored, or it would undo a write its author has not seen.
Every write is told to those who watch, as a `Change`.
-/

namespace GameFleet

/-! ## Errors -/

/-- Why a store does not do what it was asked for. -/
inductive StoreError where
  | notFound (kind key : String)
  | alreadyExists (kind key : String)
  /-- The write carries another version than the one stored. -/
  | conflict (kind key : String) (stored given : Nat)
  | unavailable (cause : String)
  deriving DecidableEq, Repr

namespace StoreError

def message : StoreError → String
  | .notFound kind key => kind ++ " " ++ key ++ " not found"
  | .alreadyExists kind key => kind ++ " " ++ key ++ " already exists"
  | .conflict kind key stored given =>
    "conflict writing " ++ kind ++ " " ++ key ++ ": expected version " ++ toString stored ++
      ", got " ++ toString given
  | .unavailable cause => "store unavailable: " ++ cause

def isNotFound : StoreError → Bool
  | .notFound _ _ => true
  | _ => false

def isAlreadyExists : StoreError → Bool
  | .alreadyExists _ _ => true
  | _ => false

def isConflict : StoreError → Bool
  | .conflict _ _ _ _ => true
  | _ => false

end StoreError

/-! ## Changes -/

/-- What happened to an object. -/
inductive Change (α : Type) where
  | added (a : α)
  | updated (old new : α)
  /-- Carries the object as it was last stored. -/
  | deleted (a : α)
  deriving DecidableEq, Repr

/-- The latest state that a change carries. -/
def Change.object {α : Type} : Change α → α
  | .added a => a
  | .updated _ new => new
  | .deleted a => a

/-! ## Objects by key -/

/-- The objects of one kind, in the order of their keys. -/
abbrev Objects (α : Type) := Table Key α

namespace Objects

variable {α : Type} [Resource α]

/-- The objects in a namespace, or in all, that a selector selects. -/
def list (os : Objects α) (ns? : Option String) (s : Selector) : List α :=
  os.values.filter fun a =>
    (match ns? with
      | some ns => (Resource.metadata a).ns == ns
      | none => true) && s.selects (Resource.metadata a).labels

end Objects

/-! ## Stores -/

structure Store (α : Type) where
  objects : Objects α
  /-- The number of the last write. -/
  version : Nat

/-- What a store gives to an object that comes without. -/
structure Birth where
  uid : Uid
  created : Time.Instant
  deriving DecidableEq

namespace Store

variable {α : Type}

def empty : Store α := ⟨.empty, 0⟩

instance : Inhabited (Store α) := ⟨empty⟩

/-- The object under a key. -/
def get? (s : Store α) (k : Key) : Option α := s.objects.find? k

variable [Resource α]

/-- The object as the first write of it stores it. -/
def newborn (s : Store α) (birth : Birth) (a : α) : α :=
  Resource.mapMeta (fun m => { m with
    uid := some (m.uid.getD birth.uid)
    created := some (m.created.getD birth.created)
    version := s.version + 1 }) a

/-- Stores a new object. -/
def create (s : Store α) (birth : Birth) (a : α) : Except StoreError (Change α × Store α) :=
  let k := Resource.key a
  if s.objects.contains k then .error (.alreadyExists (Resource.kind α) k.toText)
  else
    let stored := s.newborn birth a
    .ok (.added stored, ⟨s.objects.insert k stored, s.version + 1⟩)

/-- The object as an update of `old` stores it. What the store controls stays. -/
def successor (s : Store α) (old a : α) : α :=
  Resource.mapMeta (fun m => { m with
    uid := (Resource.metadata old).uid
    created := (Resource.metadata old).created
    version := s.version + 1 }) a

/-- Replaces an object by one that carries its version. -/
def update (s : Store α) (a : α) : Except StoreError (Change α × Store α) :=
  let k := Resource.key a
  match s.get? k with
  | none => .error (.notFound (Resource.kind α) k.toText)
  | some old =>
    if Resource.version old = Resource.version a then
      let stored := s.successor old a
      .ok (.updated old stored, ⟨s.objects.insert k stored, s.version + 1⟩)
    else
      .error (.conflict (Resource.kind α) k.toText (Resource.version old) (Resource.version a))

/-- Takes an object away. -/
def delete (s : Store α) (k : Key) : Except StoreError (Change α × Store α) :=
  match s.get? k with
  | none => .error (.notFound (Resource.kind α) k.toText)
  | some old => .ok (.deleted old, ⟨s.objects.erase k, s.version + 1⟩)

end Store

end GameFleet
