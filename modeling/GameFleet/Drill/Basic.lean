import GameFleet.Pass.Seeding
import GameFleet.Plane.Fleet
import GameFleet.Plane.Hand

/-!
# Drills

A `Drill` is a fleet that is being tried, with what of it was reported so far. How much
happens between two steps depends on the mode: nothing, the delivery of changes to the
queues, or all the work of the reconcilers too.
-/

namespace GameFleet

/-- How much runs by itself in a drill. -/
inductive DrillMode where
  /-- Passes look objects up in the stores, and nothing runs by itself. -/
  | direct
  /-- Passes look objects up in caches, which follow the stores. -/
  | wired
  /-- The reconcilers make passes as well. -/
  | fleet
  deriving DecidableEq, Repr

instance : Named DrillMode where
  all := [.direct, .wired, .fleet]
  name
    | .direct => "direct"
    | .wired => "wired"
    | .fleet => "fleet"

/-- Why a step failed. -/
inductive DrillError where
  | refused (cause : Refusal)
  | store (cause : StoreError)
  | ports (cause : RegistryError)
  | pass (cause : PassError)
  | patch (cause : PatchError)
  | seed (cause : SeedError)
  | mishap (cause : Sample.Mishap)

structure Drill where
  fleet : Fleet
  mode : DrillMode
  /-- Instances and pods are counted, not listed. -/
  census : Bool
  /-- The text of the state that was reported last. -/
  shown : Option String
  /-- How many events were reported. -/
  told : Nat
  /-- How far the changes of each watched kind were reported. -/
  watched : List (Kind × Nat)

namespace Drill

/-- A drill that begins without objects. -/
def new (registry : Registry) (context : PassContext) (mode : DrillMode) (census : Bool) :
    Drill :=
  ⟨.new (.new registry (mode ≠ .direct)) context, mode, census || mode = .fleet, none, 0, []⟩

def plane (d : Drill) : Plane := d.fleet.hub.plane

def context (d : Drill) : PassContext := d.fleet.context

/-- Does something to the fleet. -/
def onFleet {α : Type} (op : StateM Fleet α) : StateM Drill α := fun d =>
  let (result, fleet) := op d.fleet
  (result, { d with fleet })

/-- Does something to the hub. -/
def onHub {α : Type} (op : StateM Hub α) : StateM Drill α :=
  onFleet fun f =>
    let (result, hub) := op f.hub
    (result, { f with hub })

/-- Does something to the plane. -/
def onPlane {α : Type} (op : StateM Plane α) : StateM Drill α :=
  onHub fun h =>
    let (result, plane) := op h.plane
    (result, { h with plane })

/-- Changes the plane. -/
def changePlane (f : Plane → Plane) : StateM Drill Unit := onPlane fun p => ((), f p)

def run {α : Type} (program : Program α) : StateM Drill α := onFleet (Fleet.run program)

end Drill

end GameFleet
