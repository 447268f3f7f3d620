/-!
# Feeds

A `Feed` carries news to its readers. It has room for the latest ones only: a reader
that has fallen behind is told once how many it missed, and goes on with the oldest one
left. A reader is a cursor, the number of the news item it reads next.
-/

namespace GameFleet

structure Feed (α : Type) where
  /-- All items so far, the oldest first. -/
  log : Array α
  /-- How many of the latest items can still be read. -/
  room : Nat
  /-- There will be no more items. -/
  closed : Bool

/-- What a reader finds. -/
inductive Reading (α : Type) where
  | item (a : α)
  /-- So many items were missed. -/
  | lagged (missed : Nat)
  /-- There is nothing to read yet. -/
  | idle
  /-- There is nothing to read any more. -/
  | ended
  deriving DecidableEq, Repr

namespace Feed

variable {α : Type}

/-- The least power of two that is not below `n`. -/
def powerOfTwo (n : Nat) : Nat := if n ≤ 1 then 1 else Nat.pow 2 ((n - 1).log2 + 1)

/-- A feed with room for at least so many items. -/
def new (room : Nat) : Feed α := ⟨#[], powerOfTwo room, false⟩

def push (f : Feed α) (a : α) : Feed α := { f with log := f.log.push a }

def close (f : Feed α) : Feed α := { f with closed := true }

/-- The cursor of a reader that comes now. -/
def tail (f : Feed α) : Nat := f.log.size

/-- The cursor of the oldest item that can be read. -/
def oldest (f : Feed α) : Nat := f.tail - f.room

/-- What the reader at a cursor finds, and its cursor afterwards. -/
def read (f : Feed α) (cursor : Nat) : Reading α × Nat :=
  if cursor < f.oldest then (.lagged (f.oldest - cursor), f.oldest)
  else
    match f.log[cursor]? with
    | some a => (.item a, cursor + 1)
    | none => (if f.closed then .ended else .idle, cursor)

/-- What a reader finds until there is nothing left. A reader that reads on ends in as
many readings as there are items and one. -/
def readAll (f : Feed α) : Nat → Nat → List (Reading α) × Nat
  | 0, cursor => ([], cursor)
  | readings + 1, cursor =>
    match f.read cursor with
    | (.idle, cursor) => ([], cursor)
    | (.ended, cursor) => ([], cursor)
    | (reading, cursor) =>
      let (rest, cursor) := readAll f readings cursor
      (reading :: rest, cursor)

/-- Everything that the reader at a cursor can read now. -/
def drain (f : Feed α) (cursor : Nat) : List (Reading α) × Nat :=
  f.readAll (f.tail + 1 - cursor) cursor

example : [1, 2, 3, 16, 17].map powerOfTwo = [1, 2, 4, 16, 32] := by decide +kernel

end Feed

end GameFleet
