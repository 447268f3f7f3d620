import GameFleet.Signal
import GameFleet.Store.Basic
import GameFleet.Store.Feed

/-!
# Informers

An `Informer` keeps a copy of the objects of a store, its cache, by reading the store's
feed. It comes to the feed before it lists the store, so that nothing falls between the
two; news it has already seen in a list is recognised by its version and dropped. When
it has missed news it lists the store again.

Every change of the cache is told to the informer's handlers, after the cache changed.
`Informer.relist` and `Informer.apply` return what is told.
-/

namespace GameFleet

/-! ## Caches -/

namespace Objects

variable {α : Type} [Resource α]

/-- Takes listed objects over from a cache, of which `rest` is not listed yet: what was
not in the cache was added, and what has another version was updated. -/
def takeOver (rest fresh : Objects α) : List α → List (Change α) × Objects α × Objects α
  | [] => ([], rest, fresh)
  | a :: as =>
    let k := Resource.key a
    let news : List (Change α) :=
      match rest.find? k with
      | none => [.added a]
      | some old => if Resource.version old = Resource.version a then [] else [.updated old a]
    let (changes, left, fresh) := takeOver (rest.erase k) (fresh.insert k a) as
    (news ++ changes, left, fresh)

/-- Replaces a cache by listed objects. What is not listed any more was deleted. -/
def relist (cache : Objects α) (listed : List α) : List (Change α) × Objects α :=
  let (changes, left, fresh) := takeOver cache .empty listed
  (changes ++ left.values.map .deleted, fresh)

/-- Puts news of an object into a cache, unless the cache has it or something newer. -/
def store (cache : Objects α) (a : α) : List (Change α) × Objects α :=
  let k := Resource.key a
  match cache.find? k with
  | none => ([.added a], cache.insert k a)
  | some old =>
    if Resource.version a ≤ Resource.version old then ([], cache)
    else ([.updated old a], cache.insert k a)

/-- Takes a deleted object out of a cache, unless the cache has something newer. -/
def remove (cache : Objects α) (a : α) : List (Change α) × Objects α :=
  let k := Resource.key a
  match cache.find? k with
  | none => ([], cache)
  | some old =>
    if Resource.version old ≤ Resource.version a then ([.deleted a], cache.erase k)
    else ([], cache)

/-- Applies one item of news to a cache. -/
def apply (cache : Objects α) : Change α → List (Change α) × Objects α
  | .added a => store cache a
  | .updated _ a => store cache a
  | .deleted a => remove cache a

end Objects

/-! ## Informers -/

/-- Where an informer is in its life. -/
inductive InformerPhase where
  | idle
  /-- It reads the feed at a cursor. -/
  | following (cursor : Nat)
  | finished (result : Except StoreError Unit)

structure Informer (α : Type) where
  cache : Objects α
  /-- The store was listed. -/
  synced : Bool
  phase : InformerPhase

namespace Informer

variable {α : Type}

def new : Informer α := ⟨.empty, false, .idle⟩

instance : Inhabited (Informer α) := ⟨new⟩

/-- The informer reads the feed. -/
def isFollowing (i : Informer α) : Bool :=
  match i.phase with
  | .following _ => true
  | _ => false

def finish (i : Informer α) (result : Except StoreError Unit) : Informer α :=
  { i with phase := .finished result }

variable [Resource α]

/-- Replaces the cache by what was listed, or ends when listing failed. -/
def relist (i : Informer α) (listed : Except StoreError (List α)) :
    List (Change α) × Informer α :=
  match listed with
  | .ok listed =>
    let (changes, cache) := i.cache.relist listed
    (changes, { i with cache, synced := true })
  | .error cause => ([], i.finish (.error cause))

/-- Starts the informer at the end of a feed. -/
def start (i : Informer α) (tail : Nat) (listed : Except StoreError (List α)) :
    List (Change α) × Informer α :=
  relist { i with phase := .following tail } listed

/-- Follows the feed by one reading. `listed` is what a list gives now. -/
def follow (i : Informer α) (feed : Feed (Change α)) (listed : Except StoreError (List α)) :
    List (Change α) × Informer α :=
  match i.phase with
  | .following cursor =>
    match feed.read cursor with
    | (.item change, cursor) =>
      let (changes, cache) := i.cache.apply change
      (changes, { i with cache, phase := .following cursor })
    | (.lagged _, cursor) => relist { i with phase := .following cursor } listed
    | (.idle, _) => ([], i)
    | (.ended, _) => ([], i.finish (.ok ()))
  | _ => ([], i)

/-- Follows the feed by so many readings. -/
def followFor (feed : Feed (Change α)) (listed : Except StoreError (List α)) :
    Nat → Informer α → List (Change α) × Informer α
  | 0, i => ([], i)
  | readings + 1, i =>
    let (changes, i) := i.follow feed listed
    let (later, i) := followFor feed listed readings i
    (changes ++ later, i)

/-- Follows the feed to its end, and stops if shutdown is signalled. -/
def catchUp (i : Informer α) (feed : Feed (Change α)) (listed : Except StoreError (List α))
    (shutdown : Signal) : List (Change α) × Informer α :=
  let (changes, i) := match i.phase with
    | .following cursor => followFor feed listed (feed.tail + 2 - cursor) i
    | _ => ([], i)
  (changes, if i.isFollowing && shutdown.isShutdown then i.finish (.ok ()) else i)

end Informer

end GameFleet
