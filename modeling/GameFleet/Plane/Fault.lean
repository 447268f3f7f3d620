import GameFleet.Json.Reading

/-!
# Faults

A store of a control plane can be told to misbehave. A `Disturbance` lets some calls of a
method pass and then strikes the next ones, each with the same fault. The disturbances of
one method take their turns one after the other: the calls that one lets pass are taken
even if it strikes none.
-/

namespace GameFleet

/-- The calls of a store that a disturbance can strike. -/
inductive Method where
  | get
  | list
  | create
  | update
  | delete
  deriving DecidableEq, Repr

instance : Named Method where
  all := [.get, .list, .create, .update, .delete]
  name
    | .get => "get"
    | .list => "list"
    | .create => "create"
    | .update => "update"
    | .delete => "delete"

/-- What happens to a call that is struck: it fails, or something happens to the object
just before it. -/
inductive Fault where
  | unavailable
  | conflict
  | notFound
  | alreadyExists
  /-- The object is written once more as it is. -/
  | race
  /-- The object is deleted. -/
  | vanish
  /-- The object is written without the label of its collection. -/
  | unlabel
  deriving DecidableEq, Repr

instance : Named Fault where
  all := [.unavailable, .conflict, .notFound, .alreadyExists, .race, .vanish, .unlabel]
  name
    | .unavailable => "unavailable"
    | .conflict => "conflict"
    | .notFound => "not_found"
    | .alreadyExists => "already_exists"
    | .race => "race"
    | .vanish => "vanish"
    | .unlabel => "unlabel"

structure Disturbance where
  method : Method
  fault : Fault
  /-- How many calls pass first. -/
  after : Nat
  /-- How many calls it strikes. -/
  times : Nat
  deriving DecidableEq, Repr

/-- The fault that strikes a call of a method, and the disturbances that are left. -/
def Disturbance.strike (m : Method) : List Disturbance → Option Fault × List Disturbance
  | [] => (none, [])
  | d :: ds =>
    if d.method ≠ m then
      let (fault, left) := strike m ds
      (fault, d :: left)
    else if d.after ≠ 0 then (none, { d with after := d.after - 1 } :: ds)
    else if d.times = 0 then strike m ds
    else (some d.fault, { d with times := d.times - 1 } :: ds)

end GameFleet
