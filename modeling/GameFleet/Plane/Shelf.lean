import GameFleet.Plane.Fault
import GameFleet.Store.Informer

/-!
# Shelves

A `Shelf` is all there is of one kind of objects: the store, the feed of its changes, the
informer that follows the feed, and the disturbances of calls.

Clients call the store, and passes look objects up where the shelf has them for reading: in
the informer's cache, or in the store itself. In the place of the store there can be a frozen
copy of it.
-/

namespace GameFleet

structure Shelf (α : Type) where
  store : Store α
  feed : Feed (Change α)
  informer : Informer α
  /-- What will happen to the calls of clients. -/
  disturbances : List Disturbance
  /-- What will happen to look-ups. -/
  lookupDisturbances : List Disturbance
  /-- The objects that are looked up instead of the stored ones. -/
  frozen : Option (Objects α)

namespace Shelf

variable {α β : Type}

/-- How many changes the feed of a store has room for. -/
def feedRoom : Nat := 1024

def empty : Shelf α := ⟨.empty, .new feedRoom, .new, [], [], none⟩

instance : Inhabited (Shelf α) := ⟨empty⟩

/-- The outcome of a write, which is told to the feed. -/
def commit (s : Shelf α) : Except StoreError (Change α × Store α) → Except StoreError α × Shelf α
  | .ok (change, store) => (.ok change.object, { s with store, feed := s.feed.push change })
  | .error cause => (.error cause, s)

/-- Where objects are looked up. -/
def visible (s : Shelf α) (cached : Bool) : Objects α :=
  if cached then s.informer.cache else s.frozen.getD s.store.objects

/-- Takes a copy of the store, in which objects are looked up from now on. The informer's cache
is no look at the store, and stays as it is. -/
def freeze (s : Shelf α) : Shelf α := { s with frozen := some s.store.objects }

def thaw (s : Shelf α) : Shelf α := { s with frozen := none }

variable [Resource α]

/-! ## Disturbed calls -/

/-- Writes an object, if it is there, with its metadata changed. -/
def touch (s : Shelf α) (k : Key) (f : Meta → Meta) : Shelf α :=
  match s.store.get? k with
  | none => s
  | some a => (s.commit (s.store.update (Resource.mapMeta f a))).2

/-- What a fault does to a call about a key: the error that the call fails with, or else
the shelf that it finds. -/
def suffer (s : Shelf α) (k : Key) : Fault → Option StoreError × Shelf α
  | .unavailable => (some (.unavailable "injected"), s)
  | .conflict => (some (.conflict (Resource.kind α) k.toText 0 0), s)
  | .notFound => (some (.notFound (Resource.kind α) k.toText), s)
  | .alreadyExists => (some (.alreadyExists (Resource.kind α) k.toText), s)
  | .race => (none, s.touch k id)
  | .vanish => (none, (s.commit (s.store.delete k)).2)
  | .unlabel =>
    (none, s.touch k fun m => { m with labels := m.labels.erase Labels.collectionName })

/-- Makes a call that a fault may strike. -/
def disturbed (s : Shelf α) (k : Key) (fault : Option Fault)
    (call : Shelf α → Except StoreError β × Shelf α) : Except StoreError β × Shelf α :=
  match fault with
  | none => call s
  | some fault =>
    match s.suffer k fault with
    | (some cause, s) => (.error cause, s)
    | (none, s) => call s

/-- A call of a client. -/
def call (s : Shelf α) (m : Method) (k : Key)
    (op : Shelf α → Except StoreError β × Shelf α) : Except StoreError β × Shelf α :=
  let (fault, left) := Disturbance.strike m s.disturbances
  disturbed { s with disturbances := left } k fault op

/-- A look-up. -/
def lookup (s : Shelf α) (m : Method) (k : Key) (read : Shelf α → β) :
    Except StoreError β × Shelf α :=
  let (fault, left) := Disturbance.strike m s.lookupDisturbances
  disturbed { s with lookupDisturbances := left } k fault fun s => (.ok (read s), s)

/-! ## Calls of clients -/

def get (s : Shelf α) (k : Key) : Except StoreError (Option α) × Shelf α :=
  s.call .get k fun s => (.ok (s.store.get? k), s)

/-- The key that stands for all objects of a namespace. -/
def everyKey (ns? : Option String) : Key := ⟨ns?.getD "", "*"⟩

def list (s : Shelf α) (ns? : Option String) (selector : Selector) :
    Except StoreError (List α) × Shelf α :=
  s.call .list (everyKey ns?) fun s => (.ok (s.store.objects.list ns? selector), s)

def create (s : Shelf α) (birth : Birth) (a : α) : Except StoreError α × Shelf α :=
  s.call .create (Resource.key a) fun s => s.commit (s.store.create birth a)

def update (s : Shelf α) (a : α) : Except StoreError α × Shelf α :=
  s.call .update (Resource.key a) fun s => s.commit (s.store.update a)

def delete (s : Shelf α) (k : Key) : Except StoreError Unit × Shelf α :=
  s.call .delete k fun s =>
    let (result, s) := s.commit (s.store.delete k)
    (result.map fun _ => (), s)

/-! ## Look-ups -/

def find (s : Shelf α) (cached : Bool) (k : Key) : Except StoreError (Option α) × Shelf α :=
  s.lookup .get k fun s => (s.visible cached).find? k

def filter (s : Shelf α) (cached : Bool) (ns : String) (selector : Selector) :
    Except StoreError (List α) × Shelf α :=
  s.lookup .list (everyKey ns) fun s => (s.visible cached).list (some ns) selector

/-! ## The informer -/

/-- Starts the informer. -/
def startInformer (s : Shelf α) : List (Change α) × Shelf α :=
  let tail := s.feed.tail
  let (listed, s) := s.list none .everything
  let (changes, informer) := s.informer.start tail listed
  (changes, { s with informer })

/-- The informer has missed changes. -/
def lags (s : Shelf α) : Bool :=
  match s.informer.phase with
  | .following cursor => decide (cursor < s.feed.oldest)
  | _ => false

/-- The informer follows the feed by one reading, and lists the store if it has to. -/
def follow (s : Shelf α) : List (Change α) × Shelf α :=
  let (listed, s) := if s.lags then s.list none .everything else (.ok [], s)
  let (changes, informer) := s.informer.follow s.feed listed
  (changes, { s with informer })

/-- The informer follows the feed by so many readings. -/
def followFor : Nat → Shelf α → List (Change α) × Shelf α
  | 0, s => ([], s)
  | readings + 1, s =>
    let (changes, s) := s.follow
    let (later, s) := followFor readings s
    (changes ++ later, s)

/-- The informer follows the feed to its end. -/
def catchUp (s : Shelf α) : List (Change α) × Shelf α :=
  match s.informer.phase with
  | .following cursor => followFor (s.feed.tail + 1 - cursor) s
  | _ => ([], s)

end Shelf

end GameFleet
