import GameFleet.Resource.Collection

/-!
# Kinds of objects

A fleet consists of objects of four kinds, and each kind has a store of its own.
-/

namespace GameFleet

inductive Kind where
  | gameServer
  | collection
  | pod
  | node
  deriving DecidableEq, Repr

namespace Kind

/-- The objects of a kind. -/
@[reducible] def Obj : Kind → Type
  | .gameServer => GameServer
  | .collection => Collection
  | .pod => Pod
  | .node => Node

instance : (k : Kind) → Resource k.Obj
  | .gameServer => inferInstanceAs (Resource GameServer)
  | .collection => inferInstanceAs (Resource Collection)
  | .pod => inferInstanceAs (Resource Pod)
  | .node => inferInstanceAs (Resource Node)

instance : (k : Kind) → Form k.Obj
  | .gameServer => inferInstanceAs (Form GameServer)
  | .collection => inferInstanceAs (Form Collection)
  | .pod => inferInstanceAs (Form Pod)
  | .node => inferInstanceAs (Form Node)

instance : (k : Kind) → DecidableEq k.Obj
  | .gameServer => inferInstanceAs (DecidableEq GameServer)
  | .collection => inferInstanceAs (DecidableEq Collection)
  | .pod => inferInstanceAs (DecidableEq Pod)
  | .node => inferInstanceAs (DecidableEq Node)

end Kind

end GameFleet
