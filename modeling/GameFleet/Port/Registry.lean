import GameFleet.Actor
import GameFleet.Port.Pool
import GameFleet.Resource.GameServer

/-!
# The port registry

All host ports are handed out by one actor, the arbiter, which owns the pool. A call is
a request with a ticket, under which the arbiter leaves the answer. A caller may go
away before the answer is there; a port allocated for it then goes back to the pool.

`Registry.ofInstances` begins with the host ports that instances already have.
-/

namespace GameFleet

/-- Why a call to the registry failed. -/
inductive RegistryError where
  | pool (cause : PoolError)
  /-- The arbiter has ended. -/
  | stopped
  deriving DecidableEq, Repr

def RegistryError.message : RegistryError → String
  | .pool cause => cause.message
  | .stopped => "port registry stopped"

/-! ## The arbiter -/

/-- What the arbiter is asked to do. -/
inductive PortRequest where
  | allocate (owner : Key)
  | release (owner : Key) (ports : List Port)
  | available
  deriving DecidableEq, Repr

inductive PortAnswer where
  | allocated (result : Except PoolError Port)
  /-- How many ports were freed. -/
  | released (freed : Nat)
  | available (count : Nat)

/-- A request and the number its answer is kept under. -/
structure PortCall where
  ticket : Nat
  request : PortRequest
  deriving DecidableEq, Repr

/-- The pool, the answers that were not fetched yet, and the tickets of callers that
went away. -/
structure Arbiter where
  pool : PortPool Key
  answers : List (Nat × PortAnswer)
  gone : List Nat

namespace Arbiter

/-- Serves a request, except for what becomes of the answer. -/
def serve (pool : PortPool Key) : PortRequest → PortAnswer × PortPool Key
  | .allocate owner =>
    match pool.allocate owner with
    | .ok (p, pool) => (.allocated (.ok p), pool)
    | .error cause => (.allocated (.error cause), pool)
  | .release owner ports =>
    let (freed, pool) := pool.release owner ports
    (.released freed, pool)
  | .available => (.available pool.available, pool)

/-- The pool when an answer finds no caller: an allocated port is given back. -/
def takeBack (pool : PortPool Key) : PortRequest → PortAnswer → PortPool Key
  | .allocate owner, .allocated (.ok p) => (pool.release owner [p]).2
  | _, _ => pool

def handle (c : PortCall) (a : Arbiter) : Arbiter × Verdict :=
  let (answer, pool) := serve a.pool c.request
  if a.gone.contains c.ticket then
    ({ a with pool := takeBack pool c.request answer }, .handled)
  else ({ a with pool, answers := a.answers ++ [(c.ticket, answer)] }, .handled)

def behavior : Behavior Arbiter PortCall := ⟨handle, id⟩

end Arbiter

/-! ## The registry -/

/-- The arbiter as its callers see it. -/
structure Registry where
  arbiter : Actor Arbiter PortCall
  /-- The ticket of the next call. -/
  nextTicket : Nat

namespace Registry

/-- How many requests can wait. -/
def mailboxSize : Nat := 256

/-- A registry that begins with a pool. -/
def ofPool (pool : PortPool Key) : Registry := ⟨.start ⟨pool, [], []⟩ mailboxSize, 0⟩

/-- The draft in which instances hold their exposed host ports, of two that expose one
port the first. -/
def draftOf (range : PortRange) (existing : List GameServer) : PortPool.Draft Key :=
  existing.foldl (fun d g => d.registerAll (Resource.key g) g.exposedHostPorts) (.new range)

/-- The registry of the ports in a range, of which some instances already have some. -/
def ofInstances (low high : Port) (existing : List GameServer)
    (shuffle : List Port → List Port) : Except RegistryError Registry :=
  match PortRange.of low high with
  | .ok range => .ok (ofPool ((draftOf range existing).build shuffle))
  | .error cause => .error (.pool cause)

def pool (r : Registry) : PortPool Key := r.arbiter.state.pool

/-- Tells the arbiter to stop. -/
def stop (r : Registry) : Registry := { r with arbiter := r.arbiter.stop }

/-- The registry when the arbiter waits or has ended. -/
def settle (r : Registry) : Registry := { r with arbiter := r.arbiter.settle Arbiter.behavior }

/-- The arbiter has ended. -/
def finished (r : Registry) : Bool := r.arbiter.ended

/-- Sends a request. The ticket is for the answer, and there is none if the arbiter has
ended. -/
def submit (r : Registry) (request : PortRequest) : Option Nat × Registry :=
  let (arbiter, sent) := r.arbiter.send? Arbiter.behavior ⟨r.nextTicket, request⟩
  (if sent then some r.nextTicket else none, ⟨arbiter, r.nextTicket + 1⟩)

/-- Takes the answer to a call, which there is none of if the request was lost. -/
def fetch (r : Registry) (ticket : Nat) : Option PortAnswer × Registry :=
  let state := r.arbiter.state
  (state.answers.lookup ticket,
    { r with arbiter := { r.arbiter with
        state := { state with answers := state.answers.filter fun e => e.1 != ticket } } })

/-- Notes that a caller went away. -/
def forsake (r : Registry) (ticket : Nat) : Registry :=
  { r with arbiter := { r.arbiter with
      state := { r.arbiter.state with gone := ticket :: r.arbiter.state.gone } } }

/-- Sends a request and waits for the answer. -/
def call (r : Registry) (request : PortRequest) : Option PortAnswer × Registry :=
  match r.submit request with
  | (some ticket, r) => r.settle.fetch ticket
  | (none, r) => (none, r)

/-- A free port for `owner`. -/
def allocate (r : Registry) (owner : Key) : Except RegistryError Port × Registry :=
  match r.call (.allocate owner) with
  | (some (.allocated result), r) => (result.mapError .pool, r)
  | (_, r) => (.error .stopped, r)

/-- Gives back those of some ports that `owner` holds, and counts them. To give back no
ports needs no arbiter. -/
def release (r : Registry) (owner : Key) (ports : List Port) :
    Except RegistryError Nat × Registry :=
  if ports.isEmpty then (.ok 0, r)
  else
    match r.call (.release owner ports) with
    | (some (.released freed), r) => (.ok freed, r)
    | (_, r) => (.error .stopped, r)

/-- The number of free ports. -/
def available (r : Registry) : Except RegistryError Nat × Registry :=
  match r.call .available with
  | (some (.available count), r) => (.ok count, r)
  | (_, r) => (.error .stopped, r)

/-- Asks for a port and goes away before the answer is there. -/
def allocateAbandoned (r : Registry) (owner : Key) : Except RegistryError Unit × Registry :=
  match r.submit (.allocate owner) with
  | (some ticket, r) => (.ok (), r.forsake ticket)
  | (none, r) => (.error .stopped, r)

end Registry

end GameFleet
