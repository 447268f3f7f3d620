import GameFleet.Store.Informer

/-!
# Informers of a scripted client

An `InformerBench` is an informer with all that it meets: the feed it reads, what its client
lists, and the signal for shutdown. The other side of each is in the hands of a script.
-/

namespace GameFleet

structure InformerBench (α : Type) where
  informer : Informer α
  feed : Feed (Change α)
  /-- What the client lists. -/
  listed : Except StoreError (List α)
  shutdown : Signal

namespace InformerBench

variable {α : Type}

/-- An informer that was not started. -/
def new (room : Nat) (listed : List α) : InformerBench α :=
  ⟨.new, .new room, .ok listed, .new false⟩

/-- Sends changes, and says how many reached a reader. A closed feed takes none. -/
def send (b : InformerBench α) (changes : List (Change α)) : Nat × InformerBench α :=
  if b.feed.closed then (0, b)
  else
    (if b.informer.isFollowing then changes.length else 0,
      { b with feed := changes.foldl Feed.push b.feed })

variable [Resource α]

/-- Starts the informer, unless it was started before. -/
def run (b : InformerBench α) : List (Change α) × InformerBench α :=
  match b.informer.phase with
  | .idle =>
    let (changes, informer) := b.informer.start b.feed.tail b.listed
    (changes, { b with informer })
  | _ => ([], b)

/-- Lets the informer read all there is. -/
def settle (b : InformerBench α) : List (Change α) × InformerBench α :=
  let (changes, informer) := b.informer.catchUp b.feed b.listed b.shutdown
  (changes, { b with informer })

end InformerBench

end GameFleet
