import GameFleet.Pass.Basic

/-!
# Reports of game servers

Game servers report their players, their health and the state of their session, and
operators mark them for deletion. A report changes one field of the status and leaves the
others as they are stored; one that says what is known already writes nothing.
-/

namespace GameFleet.Report

/-- Changes the status of an instance, which has to be there. -/
def change (retry : Retry) (key : Key) (f : GameServerStatus → GameServerStatus) :
    Access GameServer := do
  let changed (g : GameServer) : Option GameServer :=
    let status := f g.status
    if status = g.status then none else some { g with status }
  match ← Access.modify retry .gameServer key changed with
  | some g => return g
  | none => throw (.notFound (Resource.kind GameServer) key.toText)

def players (retry : Retry) (key : Key) (count : UInt32) : Access GameServer :=
  change retry key fun s => { s with activePlayers := count }

def health (retry : Retry) (key : Key) (health : Health) : Access GameServer :=
  change retry key fun s => { s with health }

def state (retry : Retry) (key : Key) (state : SessionState) : Access GameServer :=
  change retry key fun s => { s with state }

def mark (retry : Retry) (key : Key) (marked : Bool) : Access GameServer :=
  change retry key fun s => { s with markedForDeletion := marked }

/-- The instances of a namespace that can take players now. -/
def ready (ns : String) : Access (List GameServer) := do
  let all ← Access.list .gameServer ns .everything
  return all.filter (·.isReady)

end GameFleet.Report
