import GameFleet.Actor
import Mathlib.Data.List.Basic
import Mathlib.Logic.Relation

/-!
# Those who send to an actor

An `Office` is an actor with the handles to it and the sends that were made with them, any number
of them at a time. The actor goes around in a loop : it looks whether it was told to stop or was
given up, then into its mailbox, and waits when there is nothing (`Office.Turn`). While it does so
and while it handles a message, others send, stop it, or give up their handles (`Office.Call`). A
send is accepted in the moment in which its message gets a place in the mailbox, and refused when
the mailbox is closed.

The operations of `Actor`, which do all this at once, are runs of such moves : a turn goes once
around the loop (`Office.turns_step?`), an actor that is left alone settles (`Office.turns_settle`),
and a send waits for room before it is accepted or refused (`Office.run_send?`).
-/

namespace GameFleet

open Relation

variable {σ μ : Type}

/-! ## Stages -/

/-- Where an actor is in its loop, or after it. -/
inductive LoopStage (μ : Type) where
  /-- It is about to look whether it was told to stop. -/
  | looking
  /-- It was not, and is about to look into the mailbox. -/
  | cleared
  /-- It has found nothing, and waits. -/
  | asleep
  | handling (m : μ)
  /-- It has left the loop, and is about to close the mailbox. -/
  | leaving
  /-- The mailbox is closed. -/
  | closed
  | done
  /-- It was broken off, with what it had in hand. -/
  | broken (m? : Option μ)

namespace LoopStage

/-- The message that was taken and not handled to the end. -/
def inHand? : LoopStage μ → Option μ
  | .handling m => some m
  | .broken m? => m?
  | _ => none

/-- The actor has left its loop. -/
def isPast : LoopStage μ → Bool
  | .leaving | .closed | .done | .broken _ => true
  | _ => false

/-- The mailbox takes no messages. -/
def isClosed : LoopStage μ → Bool
  | .closed | .done | .broken _ => true
  | _ => false

theorem isClosed_of_isPast {stage : LoopStage μ} (h : stage.isPast = false) :
    stage.isClosed = false := by
  revert h
  cases stage <;> simp [isPast, isClosed]

/-- Where the actor goes when it has handled a message. -/
def onward (verdict : Verdict) : LoopStage μ := if verdict.ends then .leaving else .looking

variable (verdict : Verdict)

@[simp]
theorem inHand?_onward : (onward verdict : LoopStage μ).inHand? = none := by
  unfold onward
  split <;> rfl

@[simp]
theorem isClosed_onward : (onward verdict : LoopStage μ).isClosed = false := by
  unfold onward
  split <;> rfl

@[simp]
theorem isPast_onward : (onward verdict : LoopStage μ).isPast = verdict.ends := by
  unfold onward
  cases verdict.ends <;> rfl

theorem onward_ne_cleared : (onward verdict : LoopStage μ) ≠ .cleared := by
  unfold onward
  split <;> nofun

end LoopStage

/-- What has become of a send. -/
inductive SendStage where
  /-- It waits for room in the mailbox. -/
  | waiting
  | accepted
  /-- It has returned that the actor has stopped. -/
  | refused
  /-- Whoever sent has given it up. -/
  | withdrawn
  deriving DecidableEq

/-- A send that was made with a handle. -/
structure Sending (μ : Type) where
  handle : Nat
  message : μ
  stage : SendStage

/-! ## Offices -/

structure Office (σ μ : Type) where
  actor : Actor σ μ
  stage : LoopStage μ
  /-- The handles that there are, by their numbers. -/
  handles : List Nat
  /-- How many handles are being given up : nothing can be sent with them, but the actor does not
  know yet. -/
  parting : Nat
  sends : List (Sending μ)
  /-- The messages that the mailbox has accepted, the oldest first. -/
  accepted : List μ
  /-- The messages that were handled to the end, the oldest first. -/
  handled : List μ

namespace Office

/-- An actor that was just started, to which there is one handle. -/
def opening (state : σ) (capacity : Nat) : Office σ μ :=
  ⟨.start state capacity, .looking, [0], 0, [], [], []⟩

/-- There is something for the actor to see. -/
def isStirred (w : Office σ μ) : Bool :=
  w.actor.stopping || !w.actor.reachable || !w.actor.mailbox.isEmpty || w.handles.isEmpty

/-- What is done with handles, and what else happens to the actor. -/
inductive Call : Office σ μ → Office σ μ → Prop where
  | clone (w : Office σ μ) (handle copy : Nat) (hhandle : handle ∈ w.handles)
    (hcopy : copy ∉ w.handles) : Call w { w with handles := copy :: w.handles }
  | send (w : Office σ μ) (handle : Nat) (m : μ) (hhandle : handle ∈ w.handles) :
    Call w { w with sends := w.sends ++ [⟨handle, m, .waiting⟩] }
  | accept (w : Office σ μ) (before after : List (Sending μ)) (handle : Nat) (m : μ)
    (actor : Actor σ μ) (hsends : w.sends = before ++ ⟨handle, m, .waiting⟩ :: after)
    (hroom : w.actor.hasRoom = true) (h : w.actor.post? m = some actor) :
    Call w { w with
      actor
      sends := before ++ ⟨handle, m, .accepted⟩ :: after
      accepted := w.accepted ++ [m] }
  | refuse (w : Office σ μ) (before after : List (Sending μ)) (handle : Nat) (m : μ)
    (hsends : w.sends = before ++ ⟨handle, m, .waiting⟩ :: after)
    (h : w.actor.post? m = none) :
    Call w { w with sends := before ++ ⟨handle, m, .refused⟩ :: after }
  | withdraw (w : Office σ μ) (before after : List (Sending μ)) (handle : Nat) (m : μ)
    (hsends : w.sends = before ++ ⟨handle, m, .waiting⟩ :: after) :
    Call w { w with sends := before ++ ⟨handle, m, .withdrawn⟩ :: after }
  | stop (w : Office σ μ) (handle : Nat) (hhandle : handle ∈ w.handles) :
    Call w { w with actor := w.actor.stop }
  /-- A handle that nobody sends with is given up. -/
  | part (w : Office σ μ) (handle : Nat) (hhandle : handle ∈ w.handles)
    (hidle : ∀ s ∈ w.sends, s.handle = handle → s.stage ≠ .waiting) :
    Call w { w with handles := w.handles.erase handle, parting := w.parting + 1 }
  /-- A handle is gone. -/
  | gone (w : Office σ μ) (parting : Nat) (hparting : w.parting = parting + 1)
    (hleft : w.handles ≠ [] ∨ parting ≠ 0) : Call w { w with parting }
  /-- The last handle is gone. -/
  | abandon (w : Office σ μ) (hhandles : w.handles = []) (hparting : w.parting = 1) :
    Call w { w with parting := 0, actor := w.actor.abandon }
  /-- The handling of a message comes to no end, or the actor is broken off from outside. -/
  | breakOff (w : Office σ μ) (hstage : w.stage ≠ .done) :
    Call w { w with
      actor := { w.actor with mailbox := [], ended := true }
      stage := .broken w.stage.inHand? }

/-- What the actor does. -/
inductive Turn (b : Behavior σ μ) : Office σ μ → Office σ μ → Prop where
  /-- It was told to stop, or there is no handle. -/
  | heed (w : Office σ μ) (hstage : w.stage = .looking)
    (hstop : (w.actor.stopping || !w.actor.reachable) = true) :
    Turn b w { w with stage := .leaving }
  | pass (w : Office σ μ) (hstage : w.stage = .looking)
    (hstop : (w.actor.stopping || !w.actor.reachable) = false) :
    Turn b w { w with stage := .cleared }
  | take (w : Office σ μ) (m : μ) (rest : List μ) (hstage : w.stage = .cleared)
    (hmailbox : w.actor.mailbox = m :: rest) :
    Turn b w { w with actor := { w.actor with mailbox := rest }, stage := .handling m }
  /-- There is nothing in the mailbox and nobody who could send. -/
  | shut (w : Office σ μ) (hstage : w.stage = .cleared) (hmailbox : w.actor.mailbox = [])
    (hhandles : w.handles = []) : Turn b w { w with stage := .leaving }
  | sleep (w : Office σ μ) (hstage : w.stage = .cleared) (hmailbox : w.actor.mailbox = [])
    (hhandles : w.handles ≠ []) : Turn b w { w with stage := .asleep }
  | wake (w : Office σ μ) (hstage : w.stage = .asleep) (hstirred : w.isStirred = true) :
    Turn b w { w with stage := .looking }
  | handle (w : Office σ μ) (m : μ) (hstage : w.stage = .handling m) :
    Turn b w { w with
      actor := { w.actor with state := (b.handle m w.actor.state).1 }
      stage := .onward (b.handle m w.actor.state).2
      handled := w.handled ++ [m] }
  | close (w : Office σ μ) (hstage : w.stage = .leaving) :
    Turn b w { w with actor := { w.actor with ended := true }, stage := .closed }
  | finish (w : Office σ μ) (hstage : w.stage = .closed) :
    Turn b w { w with actor := w.actor.finish b, stage := .done }

inductive Step (b : Behavior σ μ) (w v : Office σ μ) : Prop where
  | call (h : Call w v)
  | turn (h : Turn b w v)

abbrev Run (b : Behavior σ μ) : Office σ μ → Office σ μ → Prop := ReflTransGen (Step b)

/-- The actor cannot go on by itself. -/
def Settled (b : Behavior σ μ) (w : Office σ μ) : Prop := ∀ v, ¬Turn b w v

variable {b : Behavior σ μ} {state : σ} {w v : Office σ μ}

/-- An actor settles when it is over, or waits and there is nothing to see. -/
theorem Settled.cases (h : w.Settled b) : w.stage = .done ∨ (∃ m?, w.stage = .broken m?) ∨
    w.stage = .asleep ∧ w.isStirred = false := by
  cases hstage : w.stage with
  | looking =>
    cases hstop : w.actor.stopping || !w.actor.reachable with
    | true => exact (h _ (.heed w hstage hstop)).elim
    | false => exact (h _ (.pass w hstage hstop)).elim
  | cleared =>
    cases hmailbox : w.actor.mailbox with
    | cons m rest => exact (h _ (.take w m rest hstage hmailbox)).elim
    | nil =>
      by_cases hhandles : w.handles = []
      · exact (h _ (.shut w hstage hmailbox hhandles)).elim
      · exact (h _ (.sleep w hstage hmailbox hhandles)).elim
  | asleep =>
    cases hstirred : w.isStirred with
    | true => exact (h _ (.wake w hstage hstirred)).elim
    | false => exact .inr (.inr ⟨rfl, rfl⟩)
  | handling m => exact (h _ (.handle w m hstage)).elim
  | leaving => exact (h _ (.close w hstage)).elim
  | closed => exact (h _ (.finish w hstage)).elim
  | done => exact .inl rfl
  | broken m? => exact .inr (.inl ⟨m?, rfl⟩)

theorem settled_of_asleep (hstage : w.stage = .asleep) (hstirred : w.isStirred = false) :
    w.Settled b := by
  intro v hturn
  cases hturn with
  | wake _ h => simp [hstirred] at h
  | _ => simp_all

theorem settled_of_done (hstage : w.stage = .done) : w.Settled b := by
  intro v hturn
  cases hturn <;> simp_all

/-! ## The operations of an actor -/

/-- Any number of turns. -/
abbrev Turns (b : Behavior σ μ) : Office σ μ → Office σ μ → Prop := ReflTransGen (Turn b)

theorem Turns.run (h : Turns b w v) : Run b w v := h.lift id fun _ _ => .turn

/-- The actor does nothing to handles and sends. -/
theorem Turns.frame (h : Turns b w v) : v.sends = w.sends ∧ v.handles = w.handles ∧
    v.actor.capacity = w.actor.capacity := by
  induction h with
  | refl => exact ⟨rfl, rfl, rfl⟩
  | tail _ hturn ih => cases hturn <;> exact ih

/-- The actor has nothing in hand, or is over. -/
def IsPaused (w : Office σ μ) : Prop :=
  (w.stage = .looking ∨ w.stage = .asleep) ∧ w.actor.ended = false ∨
    w.stage = .done ∧ w.actor.ended = true

theorem turns_end (hstage : w.stage = .leaving) :
    Turns b w { w with actor := w.actor.finish b, stage := .done } :=
  .tail (.single (.close w hstage)) (.finish _ rfl)

theorem turns_handle {m : μ} {rest : List μ} (hstage : w.stage = .looking)
    (hstop : (w.actor.stopping || !w.actor.reachable) = false)
    (hmailbox : w.actor.mailbox = m :: rest) : Turns b w { w with
      actor := { w.actor with state := (b.handle m w.actor.state).1, mailbox := rest }
      stage := .onward (b.handle m w.actor.state).2
      handled := w.handled ++ [m] } :=
  (ReflTransGen.tail (.single (.pass w hstage hstop)) (.take _ m rest rfl hmailbox)).tail
    (.handle _ m rfl)

/-- A turn of the actor goes once around its loop. -/
theorem turns_step? {next : Actor σ μ} (hpaused : w.IsPaused) (h : w.actor.step? b = some next) :
    ∃ v, Turns b w v ∧ v.actor = next ∧ v.IsPaused := by
  obtain ⟨hended, hcases⟩ := Actor.step?_cases h
  have hstage : w.stage = .looking ∨ w.stage = .asleep := by
    rcases hpaused with ⟨hstage, -⟩ | ⟨-, hdone⟩
    · exact hstage
    · simp [hended] at hdone
  have hstirred : w.isStirred = true := by
    rcases hcases with ⟨hstop, -⟩ | ⟨-, m, rest, hmailbox, -⟩
    · simp [isStirred, hstop]
    · simp [isStirred, hmailbox]
  have hlook : Turns b w { w with stage := .looking } := by
    obtain ⟨actor, stage, handles, parting, sends, accepted, handled⟩ := w
    rcases hstage with rfl | rfl
    · exact .refl
    · exact .single (.wake _ rfl hstirred)
  rcases hcases with ⟨hstop, rfl⟩ | ⟨hstop, m, rest, hmailbox, rfl⟩
  · exact ⟨_, (hlook.tail (.heed _ rfl hstop)).trans (turns_end rfl), rfl, .inr ⟨rfl, rfl⟩⟩
  · have hhandled := hlook.trans (turns_handle rfl hstop hmailbox)
    cases hends : (b.handle m w.actor.state).2.ends with
    | false => exact ⟨_, hhandled, rfl, .inl ⟨.inl (by simp [LoopStage.onward, hends]), hended⟩⟩
    | true =>
      have hleaving : (LoopStage.onward (b.handle m w.actor.state).2 : LoopStage μ) = .leaving := by
        simp [LoopStage.onward, hends]
      exact ⟨_, hhandled.trans (turns_end hleaving), rfl, .inr ⟨rfl, rfl⟩⟩

theorem turns_steps (turns : Nat) (hpaused : w.IsPaused) :
    ∃ v, Turns b w v ∧ v.actor = w.actor.steps b turns ∧ v.IsPaused := by
  induction turns generalizing w with
  | zero => exact ⟨w, .refl, rfl, hpaused⟩
  | succ turns ih =>
    rw [Actor.steps]
    split
    · next next hnext =>
      obtain ⟨u, hu, rfl, hupaused⟩ := turns_step? hpaused hnext
      obtain ⟨v, hv, hactor, hvpaused⟩ := ih hupaused
      exact ⟨v, hu.trans hv, hactor, hvpaused⟩
    · exact ⟨w, .refl, rfl, hpaused⟩

/-- An actor that is left alone settles. -/
theorem turns_settle (hpaused : w.IsPaused) (hhandles : w.handles ≠ []) :
    ∃ v, Turns b w v ∧ v.actor = w.actor.settle b ∧ v.IsPaused ∧ v.Settled b := by
  obtain ⟨v, hv, hactor, hvpaused⟩ := turns_steps (b := b) (w.actor.mailbox.length + 1) hpaused
  obtain ⟨-, hsame, -⟩ := hv.frame
  have hnone : v.actor.step? b = none := hactor ▸ Actor.step?_settle b w.actor
  rcases hvpaused with ⟨hstage, hended⟩ | hdone
  · obtain ⟨hstop, hmailbox⟩ := (Actor.step?_eq_none_iff.1 hnone).resolve_left (by simp [hended])
    have hcalm : v.isStirred = false := by simp_all [isStirred]
    rcases hstage with hstage | hstage
    · have hsleep := (hv.tail (.pass _ hstage hstop)).tail
        (.sleep _ rfl hmailbox (hsame ▸ hhandles))
      exact ⟨_, hsleep, hactor, .inl ⟨.inr rfl, hended⟩, settled_of_asleep rfl hcalm⟩
    · exact ⟨v, hv, hactor, .inl ⟨.inr hstage, hended⟩, settled_of_asleep hstage hcalm⟩
  · exact ⟨v, hv, hactor, .inr hdone, settled_of_done hdone.1⟩

/-- Whoever waits for room gets it, or the actor has ended. -/
theorem turns_room (hpaused : w.IsPaused) (hhandles : w.handles ≠ [])
    (hcapacity : 0 < w.actor.capacity) : ∃ v, Turns b w v ∧
      v.actor = (if w.actor.hasRoom || w.actor.ended then w.actor else w.actor.settle b) ∧
      v.IsPaused ∧ (v.actor.hasRoom = true ∨ v.actor.ended = true) := by
  split
  · next hready => exact ⟨w, .refl, rfl, hpaused, by simpa using hready⟩
  · obtain ⟨v, hv, hactor, hvpaused, -⟩ := turns_settle (b := b) hpaused hhandles
    obtain ⟨-, -, hsame⟩ := hv.frame
    refine ⟨v, hv, hactor, hvpaused, ?_⟩
    have hnone : v.actor.step? b = none := hactor ▸ Actor.step?_settle b w.actor
    rcases Actor.step?_eq_none_iff.1 hnone with hended | ⟨-, hmailbox⟩
    · exact .inr hended
    · exact .inl (by simpa [Actor.hasRoom, hmailbox, hsame] using hcapacity)

/-- To send is to wait for room, and then to be accepted or refused. -/
theorem run_send? (hpaused : w.IsPaused) {handle : Nat} (hhandle : handle ∈ w.handles)
    (hcapacity : 0 < w.actor.capacity) (m : μ) :
    ∃ v, Run b w v ∧ v.actor = (w.actor.send? b m).1 ∧ v.IsPaused ∧ v.sends = w.sends ++
      [⟨handle, m, if (w.actor.send? b m).2 then .accepted else .refused⟩] := by
  have hbegun : Run b w { w with sends := w.sends ++ [⟨handle, m, .waiting⟩] } :=
    .single (.call (.send w handle m hhandle))
  obtain ⟨u, hu, hactor, hupaused, hready⟩ :=
    turns_room (b := b) (w := { w with sends := w.sends ++ [⟨handle, m, .waiting⟩] }) hpaused
      (List.ne_nil_of_mem hhandle) hcapacity
  have hwaits : Run b w u := hbegun.trans hu.run
  obtain ⟨hsends, -, -⟩ := hu.frame
  cases hpost : u.actor.post? m with
  | none =>
    rw [Actor.send?_of_none (hactor ▸ hpost), ← hactor]
    exact ⟨_, hwaits.tail (.call (.refuse u w.sends [] handle m hsends hpost)), rfl, hupaused, rfl⟩
  | some actor =>
    rw [Actor.send?_of_some (hactor ▸ hpost)]
    obtain ⟨hended, rfl⟩ := Actor.post?_eq_some hpost
    have hroom := hready.resolve_right (by simp [hended])
    exact ⟨_, hwaits.tail (.call (.accept u w.sends [] handle m _ hsends hroom hpost)), rfl,
      hupaused, rfl⟩

end Office

end GameFleet
