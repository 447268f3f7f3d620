import GameFleet.Naming
import GameFleet.Pass.Basic
import GameFleet.Plane.Shelf

/-!
# Control planes

A `Plane` is what the programs of a fleet share: a shelf for each kind of objects, the
port registry, the events that were recorded, the clock and the source of names.
`Plane.serve` answers a request, and by it `Plane.run` runs a program that is alone.
-/

namespace GameFleet

open Time (Instant)

structure Plane where
  gameServers : Shelf GameServer
  collections : Shelf Collection
  pods : Shelf Pod
  nodes : Shelf Node
  registry : Registry
  /-- What was recorded, the oldest first. -/
  events : List Event
  clock : Instant
  /-- How many suffixes were drawn. -/
  suffixes : Nat
  /-- How many objects were to be born. -/
  births : Nat
  /-- Look-ups are answered from the caches of the informers. -/
  cached : Bool

/-- The birth of an object that `n` others were born before. Identifiers count up, and no
two objects are born at the same time. -/
def Birth.numbered (n : Nat) : Birth :=
  ⟨⟨BitVec.ofNat 128 (0xf1ee7000000040008000000000000000 + n)⟩, ⟨1714564800, n + 1⟩⟩

namespace Plane

/-- When the clock of a plane starts: at noon of the first of May 2024. -/
def startTime : Instant := ⟨1714564800, 0⟩

/-- A plane without objects. -/
def new (registry : Registry) (cached : Bool) : Plane where
  gameServers := .empty
  collections := .empty
  pods := .empty
  nodes := .empty
  registry := registry
  events := []
  clock := startTime
  suffixes := 0
  births := 0
  cached := cached

/-! ## Shelves -/

/-- The shelf of a kind. -/
def shelf (p : Plane) : (kind : Kind) → Shelf kind.Obj
  | .gameServer => p.gameServers
  | .collection => p.collections
  | .pod => p.pods
  | .node => p.nodes

/-- The plane with another shelf for a kind. -/
def setShelf (p : Plane) : (kind : Kind) → Shelf kind.Obj → Plane
  | .gameServer, s => { p with gameServers := s }
  | .collection, s => { p with collections := s }
  | .pod, s => { p with pods := s }
  | .node, s => { p with nodes := s }

theorem shelf_setShelf (p : Plane) (kind : Kind) (s : Shelf kind.Obj) :
    (p.setShelf kind s).shelf kind = s := by
  cases kind <;> rfl

theorem shelf_setShelf_of_ne (p : Plane) {kind other : Kind} (s : Shelf kind.Obj)
    (h : other ≠ kind) : (p.setShelf kind s).shelf other = p.shelf other := by
  cases kind <;> cases other <;> first | rfl | exact absurd rfl h

/-- Does something to the shelf of a kind. -/
def onShelf {β : Type} (kind : Kind) (op : Shelf kind.Obj → β × Shelf kind.Obj) :
    StateM Plane β := fun p =>
  let (result, s) := op (p.shelf kind)
  (result, p.setShelf kind s)

/-- Does something to the registry. -/
def onRegistry {β : Type} (op : Registry → β × Registry) : StateM Plane β := fun p =>
  let (result, registry) := op p.registry
  (result, { p with registry })

/-! ## Requests -/

/-- Answers a request. -/
def serve : (request : Request) → StateM Plane request.Answer
  | .cached kind key => fun p => onShelf kind (·.find p.cached key) p
  | .cachedList kind ns selector => fun p => onShelf kind (·.filter p.cached ns selector) p
  | .get kind key => onShelf kind (·.get key)
  | .list kind ns selector => onShelf kind (·.list (some ns) selector)
  | .create kind object => fun p =>
    onShelf kind (·.create (.numbered p.births) object) { p with births := p.births + 1 }
  | .update kind object => onShelf kind (·.update object)
  | .delete kind key => onShelf kind (·.delete key)
  | .allocate owner => onRegistry (·.allocate owner)
  | .release owner ports => onRegistry (·.release owner ports)
  | .now => fun p => (p.clock, p)
  | .suffix length => fun p =>
    (Naming.suffix length p.suffixes, { p with suffixes := p.suffixes + 1 })
  | .pick _ count => fun p => (List.range count, p)
  | .record event => fun p => ((), { p with events := p.events ++ [event] })
  | .pause _ => fun p => ((), p)

/-- Runs a program that nothing else runs beside. -/
def run {α : Type} (program : Program α) : StateM Plane α := program.run (m := StateM Plane) serve

end Plane

end GameFleet
