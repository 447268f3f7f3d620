/-!
# Actors

An `Actor` owns a state and handles the messages in its mailbox one after the other. It
ends when it is told to stop, when no handle to it is left, or when handling a message
ends it; what is in the mailbox then is lost, and nothing more can be sent. A stop is
seen before the next message is taken (`Actor.step`).
-/

namespace GameFleet

/-- What the handling of a message comes to. -/
inductive Verdict where
  | handled
  /-- The message could not be handled, and the next one is taken. -/
  | failed (text : String)
  /-- The actor ends, having failed. -/
  | fatal (text : String)
  /-- The actor ends. -/
  | quit
  deriving DecidableEq, Repr

/-- Whether the actor ends after a message. -/
def Verdict.ends : Verdict → Bool
  | .handled | .failed _ => false
  | .fatal _ | .quit => true

/-- How an actor with states `σ` handles messages `μ`. -/
structure Behavior (σ μ : Type) where
  handle : μ → σ → σ × Verdict
  /-- The state after the end. -/
  onStop : σ → σ

structure Actor (σ μ : Type) where
  state : σ
  /-- The messages that were sent and not taken, the oldest first. -/
  mailbox : List μ
  /-- The number of messages the mailbox has room for. -/
  capacity : Nat
  /-- The actor was told to stop. -/
  stopping : Bool
  /-- There is a handle to send messages with. -/
  reachable : Bool
  ended : Bool

namespace Actor

variable {σ μ : Type}

/-- An actor with an empty mailbox. -/
def start (state : σ) (capacity : Nat) : Actor σ μ := ⟨state, [], capacity, false, true, false⟩

/-- Tells the actor to stop. -/
def stop (a : Actor σ μ) : Actor σ μ := { a with stopping := true }

/-- Gives up the last handle. -/
def abandon (a : Actor σ μ) : Actor σ μ := { a with reachable := false }

/-- The actor at its end. -/
def finish (b : Behavior σ μ) (a : Actor σ μ) : Actor σ μ :=
  { a with state := b.onStop a.state, mailbox := [], ended := true }

/-- One turn of the actor, unless it has ended or waits. -/
def step? (b : Behavior σ μ) (a : Actor σ μ) : Option (Actor σ μ) :=
  if a.ended then none
  else if a.stopping || !a.reachable then some (finish b a)
  else
    match a.mailbox with
    | [] => none
    | m :: rest =>
      let (state, verdict) := b.handle m a.state
      let a := { a with state, mailbox := rest }
      some (if verdict.ends then finish b a else a)

/-- An actor that can take a turn ends, or handles the message that has waited longest. -/
theorem step?_cases {b : Behavior σ μ} {a next : Actor σ μ} (h : a.step? b = some next) :
    a.ended = false ∧
      ((a.stopping || !a.reachable) = true ∧ next = finish b a ∨
        (a.stopping || !a.reachable) = false ∧ ∃ m rest, a.mailbox = m :: rest ∧
          next = if (b.handle m a.state).2.ends then
              finish b { a with state := (b.handle m a.state).1, mailbox := rest }
            else { a with state := (b.handle m a.state).1, mailbox := rest }) := by
  unfold step? at h
  split at h
  · cases h
  next hended =>
  refine ⟨by simpa using hended, ?_⟩
  split at h
  · next hstop => exact .inl ⟨hstop, (Option.some.inj h).symm⟩
  next hstop =>
  refine .inr ⟨by simpa using hstop, ?_⟩
  split at h
  · cases h
  · next m rest hmailbox => exact ⟨m, rest, hmailbox, (Option.some.inj h).symm⟩

/-- An actor waits when it has nothing to do and can still be sent something. -/
theorem step?_eq_none_iff {b : Behavior σ μ} {a : Actor σ μ} : a.step? b = none ↔
    a.ended = true ∨ (a.stopping || !a.reachable) = false ∧ a.mailbox = [] := by
  unfold step?
  split
  · next hended => simp [hended]
  next hended =>
  split
  · next hstop => simp [hended, hstop]
  next hstop =>
  split <;> simp_all

/-- The actor after as many turns as it can take, up to `turns`. -/
def steps (b : Behavior σ μ) : Nat → Actor σ μ → Actor σ μ
  | 0, a => a
  | turns + 1, a =>
    match step? b a with
    | some a => steps b turns a
    | none => a

/-- The actor when it has ended or waits. A turn takes a message or ends the actor, so
one turn more than there are messages is enough. -/
def settle (b : Behavior σ μ) (a : Actor σ μ) : Actor σ μ := steps b (a.mailbox.length + 1) a

theorem step?_steps {b : Behavior σ μ} {turns : Nat} {a : Actor σ μ}
    (h : a.ended = true ∨ a.mailbox.length < turns) : (steps b turns a).step? b = none := by
  induction turns generalizing a with
  | zero => exact step?_eq_none_iff.2 (.inl (h.resolve_right (Nat.not_lt_zero _)))
  | succ turns ih =>
    rw [steps]
    split
    · next next hnext =>
      apply ih
      obtain ⟨hended, ⟨-, rfl⟩ | ⟨-, m, rest, hmailbox, rfl⟩⟩ := step?_cases hnext
      · exact .inl rfl
      · have hlength : rest.length < turns := by simpa [hended, hmailbox] using h
        split
        · exact .inl rfl
        · exact .inr hlength
    · next hnone => exact hnone

/-- An actor that has settled has ended or waits. -/
theorem step?_settle (b : Behavior σ μ) (a : Actor σ μ) : (a.settle b).step? b = none :=
  step?_steps (.inr (Nat.lt_succ_self _))

/-- The mailbox takes a message now. -/
def hasRoom (a : Actor σ μ) : Bool := a.mailbox.length < a.capacity

/-- Puts a message into the mailbox, unless the actor has ended. -/
def post? (a : Actor σ μ) (m : μ) : Option (Actor σ μ) :=
  if a.ended then none else some { a with mailbox := a.mailbox ++ [m] }

theorem post?_eq_some {a next : Actor σ μ} {m : μ} (h : a.post? m = some next) :
    a.ended = false ∧ next = { a with mailbox := a.mailbox ++ [m] } := by
  unfold post? at h
  split at h
  · cases h
  · next hended => exact ⟨by simpa using hended, (Option.some.inj h).symm⟩

/-- Sends a message, for which a full mailbox is waited. -/
def send? (b : Behavior σ μ) (a : Actor σ μ) (m : μ) : Actor σ μ × Bool :=
  let a := if a.hasRoom || a.ended then a else settle b a
  match a.post? m with
  | some a => (a, true)
  | none => (a, false)

theorem send?_of_some {b : Behavior σ μ} {a next : Actor σ μ} {m : μ}
    (h : (if a.hasRoom || a.ended then a else settle b a).post? m = some next) :
    a.send? b m = (next, true) := by
  simp only [send?, h]

theorem send?_of_none {b : Behavior σ μ} {a : Actor σ μ} {m : μ}
    (h : (if a.hasRoom || a.ended then a else settle b a).post? m = none) :
    a.send? b m = (if a.hasRoom || a.ended then a else settle b a, false) := by
  simp only [send?, h]

end Actor

end GameFleet
