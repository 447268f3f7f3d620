import GameFleet.Pass.Reports
import GameFleet.Proofs.Pass.Contract

/-!
# Calls of `Access.edit`

A call of `Access.edit` reads an object of its key, and writes what it makes of the object
once at most. `Progress` is what such a call has come to, and `Progress.contract` what it
may ask for then : an update of what it has read last, as long as none was stored for it.
What it returns is what was stored for it or what it has read (`Progress.Returns`).

A report of a game server is such a call (`Report.change_eq`).
-/

namespace GameFleet

/-! ## Calls -/

/-- What a call of `Access.edit` has come to. -/
structure Progress (α : Type) where
  /-- The object that it read last. -/
  seen : Option α
  /-- The object that was stored for it. -/
  wrote : Option α

namespace Progress

variable {kind : Kind} {key : Key} {edit : kind.Obj → kind.Obj × Bool}

/-- A call reads an object of its key and writes what `edit` makes of it, once. -/
inductive May (kind : Kind) (key : Key) (edit : kind.Obj → kind.Obj × Bool) :
    Progress kind.Obj → Request → Prop where
  | get {p : Progress kind.Obj} : May kind key edit p (.get kind key)
  | update {p : Progress kind.Obj} {a copy : kind.Obj} (hseen : p.seen = some a)
    (hedit : edit a = (copy, true)) (hnone : p.wrote = none) :
    May kind key edit p (.update kind copy)
  | pause {p : Progress kind.Obj} {failures : Nat} : May kind key edit p (.pause failures)

/-- What a call has come to when it is answered. -/
inductive Next (kind : Kind) :
    Progress kind.Obj → (request : Request) → request.Answer → Progress kind.Obj → Prop where
  | missing {p : Progress kind.Obj} {key : Key} : Next kind p (.get kind key) (.ok none) p
  | found {p : Progress kind.Obj} {key : Key} {a : kind.Obj} :
    Next kind p (.get kind key) (.ok (some a)) { p with seen := some a }
  | written {p : Progress kind.Obj} {copy b : kind.Obj} :
    Next kind p (.update kind copy) (.ok b) { p with wrote := some b }
  | refused {p : Progress kind.Obj} {copy : kind.Obj} {e : StoreError} :
    Next kind p (.update kind copy) (.error e) p
  | paused {p : Progress kind.Obj} {failures : Nat} : Next kind p (.pause failures) () p

def contract (kind : Kind) (key : Key) (edit : kind.Obj → kind.Obj × Bool) :
    Contract (Progress kind.Obj) :=
  ⟨May kind key edit, Next kind⟩

/-- What a call returns : what was stored for it, or what it has read and left as it is. -/
def Returns (edit : kind.Obj → kind.Obj × Bool) :
    Except StoreError (Option kind.Obj) → Progress kind.Obj → Prop
  | .ok (some b), p => p.wrote = some b ∨
    p.wrote = none ∧ ∃ a, p.seen = some a ∧ edit a = (b, false)
  | .ok none, p => p.wrote = none
  | .error _, p => p.wrote = none

theorem edits (kind : Kind) (key : Key) (edit : kind.Obj → kind.Obj × Bool) :
    Access.Edits (contract kind key edit) kind key edit (fun p => p.wrote = none)
      (fun a p => p.seen = some a ∧ p.wrote = none) (Returns edit) where
  get _ := .get
  missing hs ht := by cases ht; exact hs
  found hs ht := by cases ht; exact ⟨rfl, hs⟩
  failed hs ht := by cases ht
  left hread hedit := Or.inr ⟨hread.2, _, hread.1, hedit⟩
  update hread hedit := .update hread.1 hedit hread.2
  written hread hedit ht := by cases ht; exact Or.inl rfl
  refused hread hedit ht := by cases ht; exact ⟨hread.2, fun _ => hread.2⟩
  pause _ := .pause
  paused hs ht := by cases ht; exact hs

end Progress

structure EditCall (kind : Kind) where
  key : Key
  edit : kind.Obj → kind.Obj × Bool
  /-- What it still has to do. -/
  left : Program (Except StoreError (Option kind.Obj))

/-! ## Reports -/

namespace Report

/-- What a report does to an instance. -/
def edit (f : GameServerStatus → GameServerStatus) (g : GameServer) : GameServer × Bool :=
  if f g.status = g.status then (g, false) else ({ g with status := f g.status }, true)

theorem status_edit (f : GameServerStatus → GameServerStatus) (g : GameServer) :
    (edit f g).1.status = f g.status := by
  unfold edit
  split
  · next h => exact h.symm
  · rfl

/-- The instance that was edited, which has to be there. -/
def found (key : Key) : Option GameServer → Access GameServer
  | some g => return g
  | none => throw (.notFound (Resource.kind GameServer) key.toText)

/-- A report is a call of `Access.edit`. -/
theorem change_eq (retry : Retry) (key : Key) (f : GameServerStatus → GameServerStatus) :
    change retry key f = Access.edit retry .gameServer key (edit f) >>= found key := by
  refine congrArg (Access.edit retry .gameServer key · >>= found key) (funext fun g => ?_)
  by_cases h : f g.status = g.status
  · simp [edit, h]
  · simp [edit, h]

end Report

end GameFleet
