import GameFleet.Actor.Counter
import GameFleet.Proofs.Actor.Office

/-!
# The order in which an actor handles messages

The messages that an actor has taken are the first that its mailbox has accepted, in their
order and each of them once. Nothing but a stop, the loss of all handles or the handling of a
message makes it leave its loop (`Office.HasReason`). After that it takes no further message. It
closes its mailbox at once, and nobody can tell before that it has left the loop ; from then on
every send is refused. As long as there is no reason to leave, it does not settle before it has
handled every message that was accepted (`Office.inOrder_of_reachable`).

What the handling of a message learns from elsewhere can stand in the state, so a `Behavior`
that computes its verdicts is any actor.

All this follows from where each accepted message is (`Office.Kept`), which every move of the actor
and of those who send to it keeps.
-/

namespace GameFleet

open Relation

variable {σ μ : Type}

/-! ## What comes of messages -/

namespace Behavior

/-- The state when some messages were handled one after the other. -/
def after (b : Behavior σ μ) (state : σ) (ms : List μ) : σ :=
  ms.foldl (fun state m => (b.handle m state).1) state

/-- What the handling of each of some messages comes to. -/
def verdicts (b : Behavior σ μ) : σ → List μ → List Verdict
  | _, [] => []
  | state, m :: ms => (b.handle m state).2 :: verdicts b (b.handle m state).1 ms

/-- The handling of one of the messages ends the actor. -/
def Ends (b : Behavior σ μ) (state : σ) (ms : List μ) : Prop :=
  ∃ verdict ∈ b.verdicts state ms, verdict.ends = true

variable (b : Behavior σ μ) (state : σ) (ms : List μ) (m : μ)

theorem after_concat : b.after state (ms ++ [m]) = (b.handle m (b.after state ms)).1 := by
  simp [after]

theorem verdicts_concat : b.verdicts state (ms ++ [m]) =
    b.verdicts state ms ++ [(b.handle m (b.after state ms)).2] := by
  induction ms generalizing state with
  | nil => rfl
  | cons first ms ih => simp [verdicts, ih, after]

theorem ends_concat : b.Ends state (ms ++ [m]) ↔
    b.Ends state ms ∨ (b.handle m (b.after state ms)).2.ends = true := by
  simp [Ends, verdicts_concat, or_and_right, exists_or]

end Behavior

/-- The message, if it was accepted. -/
def Sending.granted? : Sending μ → Option μ
  | ⟨_, m, .accepted⟩ => some m
  | _ => none

namespace Office

variable {b : Behavior σ μ} {state : σ} {w v : Office σ μ}

/-- The messages that were taken out of the mailbox. -/
def taken (w : Office σ μ) : List μ := w.handled ++ w.stage.inHand?.toList

theorem taken_moved {old stage : LoopStage μ} (hold : w.stage = old) (hbefore : old.inHand? = none)
    (hafter : stage.inHand? = none) (actor : Actor σ μ) :
    taken { w with actor, stage } = w.taken := by
  simp only [taken, hold, hbefore, hafter]

/-- To handle a message that was taken takes none. -/
theorem taken_onward {m : μ} (hstage : w.stage = .handling m) (actor : Actor σ μ)
    (verdict : Verdict) :
    taken { w with actor, stage := .onward verdict, handled := w.handled ++ [m] } = w.taken := by
  simp only [taken, hstage, LoopStage.inHand?_onward]
  exact List.append_nil _

/-- The messages of the sends that were accepted. -/
def granted (sends : List (Sending μ)) : List μ := sends.filterMap Sending.granted?

/-! ## What an office keeps -/

/-- There is a reason to leave the loop : the actor was told to stop, nobody has a handle, a message
has ended it, or it was broken off. -/
def HasReason (b : Behavior σ μ) (state : σ) (w : Office σ μ) : Prop :=
  w.actor.stopping = true ∨ w.handles = [] ∨ b.Ends state w.handled ∨ ∃ m?, w.stage = .broken m?

theorem HasReason.mono (h : w.HasReason b state) (hwhole : ∀ m?, w.stage ≠ .broken m?)
    {actor : Actor σ μ} (hstopping : actor.stopping = w.actor.stopping) (stage : LoopStage μ) :
    HasReason b state { w with actor, stage } := by
  rcases h with hstop | hnil | hends | ⟨m?, hbroken⟩
  · exact .inl (hstopping.trans hstop)
  · exact .inr (.inl hnil)
  · exact .inr (.inr (.inl hends))
  · exact absurd hbroken (hwhole m?)

structure Kept (b : Behavior σ μ) (state : σ) (w : Office σ μ) : Prop where
  taken : w.taken <+: w.accepted
  /-- As long as the mailbox is open, it has what was accepted and not taken. -/
  mailbox : w.actor.ended = false → w.accepted = w.taken ++ w.actor.mailbox
  granted : w.accepted.Perm (granted w.sends)
  closed : w.actor.ended = w.stage.isClosed
  effect : w.stage ≠ .done → w.actor.state = b.after state w.handled
  reachable : w.actor.reachable = false → w.handles = []
  reason : w.stage.isPast = true → w.HasReason b state
  ends : b.Ends state w.handled → w.stage.isPast = true

theorem granted_replaced {before after : List (Sending μ)} {s t : Sending μ}
    (h : t.granted? = s.granted?) :
    granted (before ++ t :: after) = granted (before ++ s :: after) := by
  simp [granted, List.filterMap_cons, h]

theorem granted_accepted (before after : List (Sending μ)) (handle : Nat) (m : μ) :
    (granted (before ++ ⟨handle, m, .accepted⟩ :: after)).Perm
      (granted (before ++ ⟨handle, m, .waiting⟩ :: after) ++ [m]) := by
  simp only [granted, List.filterMap_append, List.filterMap_cons, Sending.granted?]
  exact List.perm_middle.trans (List.perm_append_singleton _ _).symm

namespace Kept

theorem isOpen (h : w.Kept b state) (hin : w.stage.isPast = false) : w.actor.ended = false :=
  h.closed.trans (LoopStage.isClosed_of_isPast hin)

theorem not_ends (h : w.Kept b state) (hin : w.stage.isPast = false) : ¬b.Ends state w.handled :=
  fun hends => by cases hin.symm.trans (h.ends hends)

theorem ne_done (hin : w.stage.isPast = false) : w.stage ≠ .done := by
  intro hdone
  simp [hdone, LoopStage.isPast] at hin

/-- Nobody was accepted, and the actor has done nothing. -/
theorem outside (h : w.Kept b state) {stopping reachable : Bool} {handles : List Nat}
    {parting : Nat} {sends : List (Sending μ)}
    (hstopping : w.actor.stopping = true → stopping = true)
    (hhandles : w.handles = [] → handles = []) (hreachable : reachable = false → handles = [])
    (hgranted : Office.granted sends = Office.granted w.sends) : Kept b state { w with
      actor := { w.actor with stopping, reachable }, handles, parting, sends } where
  taken := h.taken
  mailbox := h.mailbox
  granted := hgranted ▸ h.granted
  closed := h.closed
  effect := h.effect
  reachable := hreachable
  reason hpast := (h.reason hpast).imp hstopping (Or.imp_left hhandles)
  ends := h.ends

theorem accept (h : w.Kept b state) {before after : List (Sending μ)} {handle : Nat} {m : μ}
    {actor : Actor σ μ} (hsends : w.sends = before ++ ⟨handle, m, .waiting⟩ :: after)
    (hpost : w.actor.post? m = some actor) : Kept b state { w with
      actor
      sends := before ++ ⟨handle, m, .accepted⟩ :: after
      accepted := w.accepted ++ [m] } := by
  obtain ⟨hended, rfl⟩ := Actor.post?_eq_some hpost
  constructor
  case taken => exact h.taken.trans (List.prefix_append _ _)
  case mailbox =>
    intro _
    rw [h.mailbox hended, List.append_assoc]
    rfl
  case granted =>
    have hgranted := h.granted
    rw [hsends] at hgranted
    exact (hgranted.append_right _).trans (granted_accepted _ _ _ _).symm
  case closed => exact h.closed
  case effect => exact h.effect
  case reachable => exact h.reachable
  case reason => exact h.reason
  case ends => exact h.ends

theorem breakOff (h : w.Kept b state) (hstage : w.stage ≠ .done) : Kept b state { w with
    actor := { w.actor with mailbox := [], ended := true }
    stage := .broken w.stage.inHand? } where
  taken := h.taken
  mailbox hended := by cases hended
  granted := h.granted
  closed := rfl
  effect _ := h.effect hstage
  reachable := h.reachable
  reason _ := .inr (.inr (.inr ⟨_, rfl⟩))
  ends _ := rfl

theorem call (h : w.Kept b state) (hcall : Call w v) : v.Kept b state := by
  cases hcall with
  | clone handle copy hhandle hcopy =>
    have hsome : w.handles ≠ [] := List.ne_nil_of_mem hhandle
    exact h.outside id (fun hnil => absurd hnil hsome)
      (fun hlost => absurd (h.reachable hlost) hsome) rfl
  | send handle m hhandle =>
    exact h.outside id id h.reachable (by simp [Office.granted, Sending.granted?])
  | accept before after handle m actor hsends hroom hpost => exact h.accept hsends hpost
  | refuse before after handle m hsends hpost =>
    exact h.outside id id h.reachable (hsends ▸ granted_replaced rfl)
  | withdraw before after handle m hsends =>
    exact h.outside id id h.reachable (hsends ▸ granted_replaced rfl)
  | stop handle hhandle => exact h.outside (fun _ => rfl) id h.reachable rfl
  | part handle hhandle hidle =>
    exact h.outside id (fun hnil => by simp [hnil]) (fun hlost => by simp [h.reachable hlost]) rfl
  | gone parting hparting hleft => exact h.outside id id h.reachable rfl
  | abandon hhandles hparting => exact h.outside id (fun _ => hhandles) (fun _ => hhandles) rfl
  | breakOff hstage => exact h.breakOff hstage

/-- The actor goes on with nothing in hand. -/
theorem moved (h : w.Kept b state) {old stage : LoopStage μ} (hold : w.stage = old)
    (hin : old.isPast = false) (hbefore : old.inHand? = none) (hafter : stage.inHand? = none)
    (hclosed : stage.isClosed = false)
    (hreason : stage.isPast = true → w.actor.stopping = true ∨ w.handles = []) :
    Kept b state { w with stage } := by
  have hin : w.stage.isPast = false := hold ▸ hin
  have htaken := taken_moved hold hbefore hafter w.actor
  constructor
  case taken => exact htaken ▸ h.taken
  case mailbox => exact htaken ▸ h.mailbox
  case granted => exact h.granted
  case closed => exact (h.isOpen hin).trans hclosed.symm
  case effect => exact fun _ => h.effect (ne_done hin)
  case reachable => exact h.reachable
  case reason => exact fun hpast => (hreason hpast).imp_right .inl
  case ends => exact fun hends => (h.not_ends hin hends).elim

theorem take (h : w.Kept b state) {m : μ} {rest : List μ} (hstage : w.stage = .cleared)
    (hmailbox : w.actor.mailbox = m :: rest) : Kept b state
      { w with actor := { w.actor with mailbox := rest }, stage := .handling m } := by
  have hin : w.stage.isPast = false := by rw [hstage]; rfl
  have haccepted : w.accepted = (w.handled ++ [m]) ++ rest := by
    simpa [Office.taken, hstage, LoopStage.inHand?, hmailbox] using h.mailbox (h.isOpen hin)
  constructor
  case taken => exact ⟨rest, haccepted.symm⟩
  case mailbox => exact fun _ => haccepted
  case granted => exact h.granted
  case closed => exact h.isOpen hin
  case effect => exact fun _ => h.effect (ne_done hin)
  case reachable => exact h.reachable
  case reason => exact nofun
  case ends => exact fun hends => (h.not_ends hin hends).elim

theorem handle (h : w.Kept b state) {m : μ} (hstage : w.stage = .handling m) : Kept b state { w with
    actor := { w.actor with state := (b.handle m w.actor.state).1 }
    stage := .onward (b.handle m w.actor.state).2
    handled := w.handled ++ [m] } := by
  have hin : w.stage.isPast = false := by rw [hstage]; rfl
  have hstate : w.actor.state = b.after state w.handled := h.effect (ne_done hin)
  -- No message has ended the actor before, so this one has if any has.
  have hends : b.Ends state (w.handled ++ [m]) ↔ (b.handle m w.actor.state).2.ends = true := by
    rw [Behavior.ends_concat, ← hstate]
    exact or_iff_right (h.not_ends hin)
  have htaken := taken_onward hstage { w.actor with state := (b.handle m w.actor.state).1 }
    (b.handle m w.actor.state).2
  constructor
  case taken => exact htaken ▸ h.taken
  case mailbox => exact fun _ => htaken ▸ h.mailbox (h.isOpen hin)
  case granted => exact h.granted
  case closed => exact (h.isOpen hin).trans (LoopStage.isClosed_onward _).symm
  case effect => exact fun _ => by rw [Behavior.after_concat, ← hstate]
  case reachable => exact h.reachable
  case reason => exact fun hpast => .inr (.inr (.inl (hends.2 (by simpa using hpast))))
  case ends => exact fun hended => by simpa using hends.1 hended

theorem close (h : w.Kept b state) (hstage : w.stage = .leaving) : Kept b state
    { w with actor := { w.actor with ended := true }, stage := .closed } := by
  have htaken : Office.taken { w with actor := { w.actor with ended := true }, stage := .closed } =
      w.taken := taken_moved hstage rfl rfl _
  have hreason := h.reason (by rw [hstage]; rfl)
  constructor
  case taken => exact htaken ▸ h.taken
  case mailbox => exact nofun
  case granted => exact h.granted
  case closed => rfl
  case effect => exact fun _ => h.effect (by simp [hstage])
  case reachable => exact h.reachable
  case reason => exact fun _ => hreason.mono (by simp [hstage]) rfl .closed
  case ends => exact fun _ => rfl

theorem finish (h : w.Kept b state) (hstage : w.stage = .closed) : Kept b state
    { w with actor := w.actor.finish b, stage := .done } := by
  have htaken : Office.taken { w with actor := w.actor.finish b, stage := .done } = w.taken :=
    taken_moved hstage rfl rfl _
  have hreason := h.reason (by rw [hstage]; rfl)
  constructor
  case taken => exact htaken ▸ h.taken
  case mailbox => exact nofun
  case granted => exact h.granted
  case closed => rfl
  case effect => exact fun hdone => absurd rfl hdone
  case reachable => exact h.reachable
  case reason => exact fun _ => hreason.mono (by simp [hstage]) rfl .done
  case ends => exact fun _ => rfl

theorem turn (h : w.Kept b state) (hturn : Turn b w v) : v.Kept b state := by
  cases hturn with
  | heed hstage hstop =>
    refine h.moved hstage rfl rfl rfl rfl fun _ => ?_
    rcases Bool.or_eq_true_iff.1 hstop with hstop | hlost
    · exact .inl hstop
    · exact .inr (h.reachable (by simpa using hlost))
  | pass hstage hstop => exact h.moved hstage rfl rfl rfl rfl nofun
  | take m rest hstage hmailbox => exact h.take hstage hmailbox
  | shut hstage hmailbox hhandles =>
    exact h.moved hstage rfl rfl rfl rfl fun _ => .inr hhandles
  | sleep hstage hmailbox hhandles =>
    exact h.moved hstage rfl rfl rfl rfl nofun
  | wake hstage hstirred => exact h.moved hstage rfl rfl rfl rfl nofun
  | handle m hstage => exact h.handle hstage
  | close hstage => exact h.close hstage
  | finish hstage => exact h.finish hstage

theorem run (h : w.Kept b state) (hrun : Run b w v) : v.Kept b state := by
  induction hrun with
  | refl => exact h
  | tail _ hstep ih =>
    cases hstep with
    | call hcall => exact ih.call hcall
    | turn hturn => exact ih.turn hturn

end Kept

theorem kept_opening (b : Behavior σ μ) (state : σ) (capacity : Nat) :
    (opening state capacity).Kept b state where
  taken := List.nil_prefix
  mailbox _ := rfl
  granted := .refl _
  closed := rfl
  effect _ := rfl
  reachable := nofun
  reason := nofun
  ends := nofun

/-! ## After the loop -/

/-- The actor takes no further message : it has left its loop, or was told to stop and has not just
seen that it was not. -/
def IsThrough (w : Office σ μ) : Prop :=
  w.stage.isPast = true ∨ w.actor.stopping = true ∧ w.stage ≠ .cleared

theorem IsThrough.stopping (h : w.IsThrough) {stage : LoopStage μ} (hstage : w.stage = stage)
    (hin : stage.isPast = false) : w.actor.stopping = true ∧ stage ≠ .cleared :=
  hstage ▸ h.resolve_left (by simp [hstage, hin])

theorem IsThrough.step (h : w.IsThrough) (hstep : Step b w v) :
    v.IsThrough ∧ v.taken = w.taken := by
  cases hstep with
  | call hcall =>
    cases hcall with
    | accept before after handle m actor hsends hroom hpost =>
      obtain ⟨-, rfl⟩ := Actor.post?_eq_some hpost
      exact ⟨h, rfl⟩
    | stop handle hhandle => exact ⟨h.imp_right (And.imp_left fun _ => rfl), rfl⟩
    | breakOff hstage => exact ⟨.inl rfl, rfl⟩
    | _ => exact ⟨h, rfl⟩
  | turn hturn =>
    cases hturn with
    | heed hstage hstop => exact ⟨.inl rfl, taken_moved hstage rfl rfl _⟩
    | pass hstage hstop => simp [(h.stopping hstage rfl).1] at hstop
    | take m rest hstage hmailbox => exact absurd rfl (h.stopping hstage rfl).2
    | shut hstage hmailbox hhandles => exact absurd rfl (h.stopping hstage rfl).2
    | sleep hstage hmailbox hhandles => exact absurd rfl (h.stopping hstage rfl).2
    | wake hstage hstirred =>
      have hstopping := (h.stopping hstage rfl).1
      exact ⟨.inr ⟨hstopping, nofun⟩, taken_moved hstage rfl rfl _⟩
    | handle m hstage =>
      have hstopping := (h.stopping hstage rfl).1
      exact ⟨.inr ⟨hstopping, LoopStage.onward_ne_cleared _⟩, taken_onward hstage _ _⟩
    | close hstage => exact ⟨.inl rfl, taken_moved hstage rfl rfl _⟩
    | finish hstage => exact ⟨.inl rfl, taken_moved hstage rfl rfl _⟩

theorem IsThrough.run (h : w.IsThrough) (hrun : Run b w v) : v.IsThrough ∧ v.taken = w.taken := by
  induction hrun with
  | refl => exact ⟨h, rfl⟩
  | tail _ hstep ih =>
    obtain ⟨hthrough, htaken⟩ := ih.1.step hstep
    exact ⟨hthrough, htaken.trans ih.2⟩

/-- Every send that is accepted by now was accepted before. -/
def AcceptsNone (w v : Office σ μ) : Prop :=
  ∀ (i : Nat) (s : Sending μ), v.sends[i]? = some s → s.stage = .accepted → w.sends[i]? = some s

theorem acceptsNone_of_eq (h : v.sends = w.sends) : w.AcceptsNone v := fun _ _ hs _ => h ▸ hs

theorem acceptsNone_replaced {before after : List (Sending μ)} {s t : Sending μ}
    (hw : w.sends = before ++ s :: after) (hv : v.sends = before ++ t :: after)
    (ht : t.stage ≠ .accepted) : w.AcceptsNone v := by
  intro i u hu haccepted
  rw [hv, List.getElem?_append] at hu
  rw [hw, List.getElem?_append]
  split at hu
  · next hbefore => rwa [if_pos hbefore]
  · next hbefore =>
    rw [if_neg hbefore]
    cases hplace : i - before.length with
    | zero =>
      rw [hplace] at hu
      obtain rfl : t = u := Option.some.inj hu
      exact absurd haccepted ht
    | succ place =>
      rw [hplace] at hu
      exact hu

/-- When the mailbox is closed it stays so, and no send is accepted. -/
theorem acceptsNone_of_step (hstep : Step b w v) (hended : w.actor.ended = true) :
    v.actor.ended = true ∧ w.AcceptsNone v := by
  cases hstep with
  | call hcall =>
    cases hcall with
    | send handle m hhandle =>
      refine ⟨hended, fun i s hs haccepted => ?_⟩
      rw [List.getElem?_append] at hs
      split at hs
      · exact hs
      · rw [List.mem_singleton.1 (List.mem_of_getElem? hs)] at haccepted
        cases haccepted
    | accept before after handle m actor hsends hroom hpost =>
      cases hended.symm.trans (Actor.post?_eq_some hpost).1
    | refuse before after handle m hsends hpost =>
      exact ⟨hended, acceptsNone_replaced hsends rfl nofun⟩
    | withdraw before after handle m hsends =>
      exact ⟨hended, acceptsNone_replaced hsends rfl nofun⟩
    | breakOff hstage => exact ⟨rfl, acceptsNone_of_eq rfl⟩
    | _ => exact ⟨hended, acceptsNone_of_eq rfl⟩
  | turn hturn =>
    refine ⟨?_, acceptsNone_of_eq (Turns.frame (.single hturn)).1⟩
    cases hturn with
    | close hstage => rfl
    | finish hstage => rfl
    | _ => exact hended

theorem acceptsNone_of_run (hrun : Run b w v) (hended : w.actor.ended = true) :
    v.actor.ended = true ∧ w.AcceptsNone v := by
  induction hrun with
  | refl => exact ⟨hended, acceptsNone_of_eq rfl⟩
  | tail _ hstep ih =>
    obtain ⟨hclosed, hnone⟩ := acceptsNone_of_step hstep ih.1
    exact ⟨hclosed, fun i s hs haccepted => ih.2 i s (hnone i s hs haccepted) haccepted⟩

/-! ## What those who send can rely on -/

structure InOrder (b : Behavior σ μ) (state : σ) (w : Office σ μ) : Prop where
  /-- The messages that were handled are the first that were accepted, in their order and each of
  them once. -/
  handled : w.handled <+: w.accepted
  /-- So are the messages that were taken. -/
  taken : w.taken <+: w.accepted
  /-- What was accepted are the messages of the sends that were accepted. -/
  granted : w.accepted.Perm (granted w.sends)
  /-- The actor is as the messages that were handled have made it. -/
  effect : w.stage ≠ .done → w.actor.state = b.after state w.handled
  /-- A message that could not be handled does not end the loop. -/
  failed : ∀ m text, w.stage = .handling m → (b.handle m w.actor.state).2 = .failed text →
    ∀ v, Turn b w v → v.stage = .looking ∧ v.handled = w.handled ++ [m]
  /-- The loop is not left without a reason. -/
  reason : w.stage.isPast = true → w.HasReason b state
  /-- It is left when the handling of a message ends it. -/
  ends : b.Ends state w.handled → w.stage.isPast = true
  /-- When it was left no further message is taken, nor when the actor was told to stop, unless it
  has just seen that it was not. -/
  through : w.IsThrough → ∀ v, Run b w v → v.taken = w.taken
  /-- The actor has ended when its mailbox is closed, after the loop. -/
  closed : w.actor.ended = w.stage.isClosed
  /-- When it has ended no send is accepted, whether it waits or is made then. -/
  refused : w.actor.ended = true → ∀ v, Run b w v → w.AcceptsNone v
  /-- A send that waits then returns that the actor has stopped. -/
  stopped : w.actor.ended = true → ∀ before after handle m,
    w.sends = before ++ ⟨handle, m, .waiting⟩ :: after →
      Call w { w with sends := before ++ ⟨handle, m, .refused⟩ :: after }
  /-- An actor that has settled and has no reason to end has handled everything. -/
  settled : w.Settled b → ¬w.HasReason b state → w.handled = w.accepted

theorem Kept.settled (h : w.Kept b state) (hsettled : w.Settled b)
    (hgoing : ¬w.HasReason b state) : w.handled = w.accepted := by
  have hin : w.stage.isPast = false := by simpa using fun hpast => hgoing (h.reason hpast)
  rcases hsettled.cases with hstage | ⟨m?, hstage⟩ | ⟨hstage, hcalm⟩
  · exact absurd hstage (ne_done hin)
  · exact absurd (.inr (.inr (.inr ⟨m?, hstage⟩))) hgoing
  · have hempty : w.actor.mailbox = [] := by simp_all [isStirred]
    simpa [Office.taken, hstage, LoopStage.inHand?, hempty] using (h.mailbox (h.isOpen hin)).symm

theorem Kept.inOrder (h : w.Kept b state) : w.InOrder b state := by
  constructor
  case handled => exact (List.prefix_append _ _).trans h.taken
  case taken => exact h.taken
  case granted => exact h.granted
  case effect => exact h.effect
  case failed =>
    intro m text hstage hfailed v hturn
    cases hturn with
    | handle m' hstage' =>
      obtain rfl := LoopStage.handling.inj (hstage.symm.trans hstage')
      exact ⟨by simp [LoopStage.onward, hfailed, Verdict.ends], rfl⟩
    | _ => simp_all
  case reason => exact h.reason
  case ends => exact h.ends
  case through => exact fun hthrough v hrun => (hthrough.run hrun).2
  case closed => exact h.closed
  case refused => exact fun hended v hrun => (acceptsNone_of_run hrun hended).2
  case stopped =>
    intro hended before after handle m hsends
    exact .refuse w before after handle m hsends (by simp [Actor.post?, hended])
  case settled => exact h.settled

/-- However sends, stops and the handling of messages fall among each other, an actor handles
what its mailbox has accepted, in order and without leaving anything out, until it has a reason to
end. -/
theorem inOrder_of_reachable {capacity : Nat} (h : Run b (opening state capacity) w) :
    w.InOrder b state :=
  ((kept_opening b state capacity).run h).inOrder

/-- Two messages were handled, the second of them in vain, and there is nothing to do. -/
def counted : Office Counter Counter.Order where
  actor := ⟨⟨2, ["add 2 -> 2", "fail"], []⟩, [], 1, false, true, false⟩
  stage := .asleep
  handles := [1, 0]
  parting := 0
  sends := [⟨0, .add 2, .accepted⟩, ⟨1, .fail "boom", .accepted⟩]
  accepted := [.add 2, .fail "boom"]
  handled := [.add 2, .fail "boom"]

/-- The second message gets room when the first one is taken. -/
theorem reachable_counted : Run Counter.behavior (opening .zero 1) counted := by
  have hstart : Run Counter.behavior (opening .zero 1) (opening .zero 1) := .refl
  have hsent := (((hstart.tail (.call (.clone _ 0 1 (by decide) (by decide)))).tail
    (.call (.send _ 0 (.add 2) (by decide)))).tail (.call (.accept _ [] [] _ _ _ rfl rfl rfl))).tail
    (.call (.send _ 1 (.fail "boom") (by decide)))
  have hfirst := (((hsent.tail (.turn (.pass _ rfl rfl))).tail (.turn (.take _ _ _ rfl rfl))).tail
    (.call (.accept _ [_] [] _ _ _ rfl rfl rfl))).tail (.turn (.handle _ _ rfl))
  have hsecond := ((hfirst.tail (.turn (.pass _ rfl rfl))).tail
    (.turn (.take _ _ _ rfl rfl))).tail (.turn (.handle _ _ rfl))
  exact (hsecond.tail (.turn (.pass _ rfl rfl))).tail (.turn (.sleep _ rfl rfl (by decide)))

/-- An actor that has settled has handled both of its messages. It is told to stop when it is about
to take a third one, after which one message is lost and another one is refused. -/
theorem inOrder_counted : (counted.Settled Counter.behavior ∧
    counted.InOrder Counter.behavior .zero) ∧
      ∃ w, Run Counter.behavior (opening .zero 1) w ∧
        (w.stage = .done ∧ w.handled = [.add 2, .fail "boom", .add 3] ∧
          w.accepted = w.handled ++ [.get 0] ∧ w.actor.state.total = 5 ∧
            w.sends.getLast? = some ⟨0, .quit, .refused⟩) ∧ w.InOrder Counter.behavior .zero := by
  have hcalled := (((reachable_counted.tail (.call (.send _ 0 (.add 3) (by decide)))).tail
    (.call (.accept _ [_, _] [] _ _ _ rfl rfl rfl))).tail (.turn (.wake _ rfl rfl))).tail
    (.turn (.pass _ rfl rfl))
  have hstopped := ((hcalled.tail (.call (.stop _ 1 (by decide)))).tail
    (.turn (.take _ _ _ rfl rfl))).tail (.turn (.handle _ _ rfl))
  have hlost := ((hstopped.tail (.turn (.heed _ rfl rfl))).tail
    (.call (.send _ 1 (.get 0) (by decide)))).tail
    (.call (.accept _ [_, _, _] [] _ _ _ rfl rfl rfl))
  have hended := (((hlost.tail (.turn (.close _ rfl))).tail
    (.call (.send _ 0 .quit (by decide)))).tail
    (.call (.refuse _ [_, _, _, _] [] _ _ rfl rfl))).tail (.turn (.finish _ rfl))
  exact ⟨⟨settled_of_asleep rfl rfl, inOrder_of_reachable reachable_counted⟩, _, hended,
    ⟨rfl, rfl, rfl, rfl, rfl⟩, inOrder_of_reachable hended⟩

end Office

end GameFleet
