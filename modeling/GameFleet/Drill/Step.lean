import GameFleet.Manifest
import GameFleet.Pass.Reconciler
import GameFleet.Plane.Fault
import GameFleet.Plane.Sample

/-!
# Steps of drills

A drill is a script by which a control plane is tried. A `Step` is one thing that is done
to the plane, by an operator, by those around it, or by hand in the place of what would
run by itself.
-/

namespace GameFleet

/-- A step on the store of one kind. -/
inductive StoreStep (kind : Kind) where
  /-- Creates an object, and copies of it with numbers after the name. -/
  | create (object : kind.Obj) (times : Nat)
  | update (object : kind.Obj)
  | delete (key : Key)
  | read (key : Key)
  | list (ns? : Option String) (selector : Selector)
  | size
  /-- Patches an object so many times. -/
  | patch (key : Key) (patch : Json) (times : Nat)
  /-- Reads an object and patches the copy, which is not written back if `skip`. -/
  | edit (key : Key) (patch : Json) (skip : Bool)
  /-- Reports all changes from here on. -/
  | watch
  | freeze
  | thaw
  | disturb (lookups : Bool) (d : Disturbance)

/-- What a game server, or an operator for it, reports. -/
inductive StatusReport where
  | players (count : UInt32)
  | health (health : Health)
  | state (state : SessionState)
  | mark (marked : Bool)

inductive Step where
  | store (kind : Kind) (step : StoreStep kind)
  /-- An object or a manifest that could not be read. -/
  | refused (cause : Refusal)
  | start
  /-- Lets so many milliseconds pass. -/
  | settle (span : Nat)
  | reconcile (who : Reconciler) (key : Key)
  | sync (who : Reconciler) (entry : String)
  /-- Makes a pass over every instance. -/
  | syncAll
  | reconcilers
  | report (key : Key) (report : StatusReport)
  | ready (ns : String)
  | releaseInstance (g : GameServer)
  | releaseCollection (c : Collection)
  /-- Deletes an instance and cleans up after it. -/
  | removeInstance (key : Key)
  | apply (manifest : Manifest)
  | allocate (owner : Key)
  | release (owner : Key) (ports : List Port)
  | stopPorts
  | setClock (time : Time.Instant)
  | advanceClock (millis : Int)
  | reasons (object : Key)
  /-- Writes an event to the log only. -/
  | log
  | node (name : String) (external? : Option String) (internal : String)
  | sampleGameServer (name : String)
  | samplePod (name : String)
  | sampleCollection (c : Collection)
  | converge (c : Collection) (players : List UInt32)
  | markReady (collection : String)
  | runPod (name node : String)
  | findings (name : String)
  | runPods (node : String)
  | memberHealth (collection : Key) (health : Health) (count? : Option Nat)
  | memberPlayers (collection : Key) (players : UInt32) (count? : Option Nat)
  | markedPlayers (players : UInt32)

end GameFleet
