import GameFleet.Resource.Template
import GameFleet.Table

/-!
# Pools of host ports

A `PortPool` hands out the ports of a range, each to one holder at a time. It looks for
a free port along a fixed circular order, from the place after the port it handed out
last, so a port that was given back comes around last. The order begins with the ports
that were held when the pool was drafted (`PortPool.Draft`), and goes on with a shuffle
of the others.
-/

namespace GameFleet

instance : Ordered UInt16 where
  decideLt a b := inferInstanceAs (Decidable (a < b))
  decideEq := inferInstance
  lt_irrefl := UInt16.lt_irrefl
  lt_trans := UInt16.lt_trans
  lt_or_eq_or_gt a b := by
    rcases Nat.lt_trichotomy a.toNat b.toNat with h | h | h
    · exact Or.inl (UInt16.lt_iff_toNat_lt.2 h)
    · exact Or.inr (Or.inl (UInt16.toNat_inj.1 h))
    · exact Or.inr (Or.inr (UInt16.lt_iff_toNat_lt.2 h))

/-- Why a pool does not do what it was asked for. -/
inductive PoolError where
  | invalidRange (low high : Port)
  | outOfRange (port low high : Port)
  | taken (port : Port)
  | exhausted (low high : Port)
  deriving DecidableEq, Repr

def PoolError.message : PoolError → String
  | .invalidRange low high => "invalid port range " ++ toString low ++ "-" ++ toString high
  | .outOfRange port low high =>
    "port " ++ toString port ++ " outside range " ++ toString low ++ "-" ++ toString high
  | .taken port => "port " ++ toString port ++ " is already taken"
  | .exhausted low high =>
    "port pool exhausted: no free port in " ++ toString low ++ "-" ++ toString high

/-! ## Ranges -/

/-- The ports from `low` to `high`. Port 0 is in no range, and no range is empty. -/
structure PortRange where
  low : Port
  high : Port
  low_pos : 0 < low
  low_le_high : low ≤ high
  deriving DecidableEq, Repr

namespace PortRange

def of (low high : Port) : Except PoolError PortRange :=
  if h : 0 < low ∧ low ≤ high then .ok ⟨low, high, h.1, h.2⟩
  else .error (.invalidRange low high)

def contains (r : PortRange) (p : Port) : Bool := r.low ≤ p && p ≤ r.high

/-- The number of ports. -/
def size (r : PortRange) : Nat := r.high.toNat - r.low.toNat + 1

/-- The ports, in ascending order. -/
def ports (r : PortRange) : List Port := (List.range' r.low.toNat r.size).map UInt16.ofNat

end PortRange

/-! ## Pools -/

/-- Ports of a range and who holds them. -/
structure PortPool (ω : Type) where
  range : PortRange
  holders : Table Port ω
  /-- The circular order in which ports are handed out. -/
  order : List Port
  /-- The place in the order where the next search begins. -/
  cursor : Nat

namespace PortPool

variable {ω : Type}

def holder? (pool : PortPool ω) (p : Port) : Option ω := pool.holders.find? p

def isFree (pool : PortPool ω) (p : Port) : Bool := (pool.holder? p).isNone

/-- The number of ports in the range. -/
def capacity (pool : PortPool ω) : Nat := pool.range.size

/-- The number of free ports. -/
def available (pool : PortPool ω) : Nat := pool.order.countP pool.isFree

/-- The ports with their places, in the order in which a search comes to them. -/
def circuit (pool : PortPool ω) : List (Port × Nat) :=
  (pool.order.drop pool.cursor).zipIdx pool.cursor ++ (pool.order.take pool.cursor).zipIdx

/-- The first free port of a list that begins at a place, with its own place. -/
def firstFree (pool : PortPool ω) : List Port → Nat → Option (Port × Nat)
  | [], _ => none
  | p :: ps, i => if pool.isFree p then some (p, i) else firstFree pool ps (i + 1)

/-- The first free port along the circuit, with its place. -/
def search (pool : PortPool ω) : Option (Port × Nat) :=
  match pool.firstFree (pool.order.drop pool.cursor) pool.cursor with
  | some place => some place
  | none => pool.firstFree (pool.order.take pool.cursor) 0

/-- The first free port along the circuit, for `owner`. -/
def allocate (pool : PortPool ω) (owner : ω) : Except PoolError (Port × PortPool ω) :=
  match pool.search with
  | some (p, i) =>
    .ok (p, { pool with
      holders := pool.holders.insert p owner
      cursor := (i + 1) % pool.order.length })
  | none => .error (.exhausted pool.range.low pool.range.high)

theorem firstFree_eq_find? (pool : PortPool ω) (ps : List Port) (i : Nat) :
    pool.firstFree ps i = (ps.zipIdx i).find? fun place => pool.isFree place.1 := by
  induction ps generalizing i with
  | nil => rfl
  | cons p ps ih =>
    rw [firstFree, List.zipIdx_cons, List.find?_cons]
    cases h : pool.isFree p <;> simp [ih]

/-- A search finds the first place of the circuit whose port is free. -/
theorem search_eq_find? (pool : PortPool ω) :
    pool.search = pool.circuit.find? fun place => pool.isFree place.1 := by
  rw [search, circuit, List.find?_append, firstFree_eq_find?, firstFree_eq_find?]
  cases ((pool.order.drop pool.cursor).zipIdx pool.cursor).find? _ <;> rfl

/-- Frees those of some ports that `owner` holds, and counts them. -/
def release [DecidableEq ω] (pool : PortPool ω) (owner : ω) : List Port → Nat × PortPool ω
  | [] => (0, pool)
  | p :: ps =>
    if pool.holder? p = some owner then
      let (freed, pool) := release { pool with holders := pool.holders.erase p } owner ps
      (freed + 1, pool)
    else release pool owner ps

/-! ## Drafts -/

/-- A pool whose order is not fixed yet. -/
structure Draft (ω : Type) where
  range : PortRange
  holders : Table Port ω
  /-- The ports held, in the order in which they were registered. -/
  registered : List Port

namespace Draft

/-- No port is held. -/
def new (range : PortRange) : Draft ω := ⟨range, .empty, []⟩

/-- Notes that `owner` holds a port. -/
def register (d : Draft ω) (owner : ω) (p : Port) : Except PoolError (Draft ω) :=
  if !d.range.contains p then .error (.outOfRange p d.range.low d.range.high)
  else if d.holders.contains p then .error (.taken p)
  else .ok { d with holders := d.holders.insert p owner, registered := d.registered ++ [p] }

/-- Notes that `owner` holds some ports, as far as no one else does. -/
def registerAll (d : Draft ω) (owner : ω) (ps : List Port) : Draft ω :=
  ps.foldl (fun d p => (d.register owner p).toOption.getD d) d

/-- The ports that no one holds, in ascending order. -/
def free (d : Draft ω) : List Port := d.range.ports.filter fun p => !d.holders.contains p

/-- The pool whose order ends with a shuffle of the free ports. -/
def build (d : Draft ω) (shuffle : List Port → List Port) : PortPool ω :=
  ⟨d.range, d.holders, d.registered ++ shuffle d.free, 0⟩

end Draft

end PortPool

end GameFleet
