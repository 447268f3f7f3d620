import GameFleet.Pass.Basic

/-!
# Contracts of programs

Programs that run beside each other can only be reasoned about through what each of them
asks for. A `Contract` says which requests a party may make in a state of its knowledge,
and what it may know after each answer ; what the others do in between is in the answers
that it has to expect. `Program.Keeps` says that a program makes such requests only,
whatever it is answered, and that a condition holds when it is done.

The rules follow how programs are built : `Program.Keeps.bind` for sequences,
`Program.Keeps.bindExcept` for sequences that an error ends, `Retry.keeps_attempt` for
attempts, and `Access.Edits.keeps` and `Access.Changes.keeps` for reading an object and writing
it back.
-/

namespace GameFleet

/-- What a party may ask for, and what it knows after an answer. -/
structure Contract (σ : Type) where
  may : σ → Request → Prop
  next : σ → (request : Request) → request.Answer → σ → Prop

variable {σ α β ε : Type} {C : Contract σ}

namespace Program

/-- The program makes only requests that the contract allows, and ends as `post` says. -/
def Keeps (C : Contract σ) (post : α → σ → Prop) : Program α → σ → Prop
  | .done a, s => post a s
  | .call request next, s => C.may s request ∧
    ∀ answer t, C.next s request answer t → (next answer).Keeps C post t

theorem keeps_ask {request : Request} {post : request.Answer → σ → Prop} {s : σ}
    (hmay : C.may s request) (hnext : ∀ answer t, C.next s request answer t → post answer t) :
    (ask request).Keeps C post s :=
  ⟨hmay, hnext⟩

theorem Keeps.mono {post post' : α → σ → Prop} {p : Program α} {s : σ} (h : p.Keeps C post s)
    (hpost : ∀ a t, post a t → post' a t) : p.Keeps C post' s := by
  induction p generalizing s with
  | done a => exact hpost a s h
  | call request next ih => exact ⟨h.1, fun answer t ht => ih answer (h.2 answer t ht)⟩

theorem Keeps.bind {mid : α → σ → Prop} {post : β → σ → Prop} {p : Program α}
    {f : α → Program β} {s : σ} (h : p.Keeps C mid s)
    (hf : ∀ a t, mid a t → (f a).Keeps C post t) : (p >>= f).Keeps C post s := by
  change (p.bind f).Keeps C post s
  induction p generalizing s with
  | done a => exact hf a s h
  | call request next ih => exact ⟨h.1, fun answer t ht => ih answer (h.2 answer t ht)⟩

/-- A condition on how a program ends that may fail. -/
def Ends (ok : α → σ → Prop) (error : ε → σ → Prop) : Except ε α → σ → Prop
  | .ok a => ok a
  | .error e => error e

theorem Keeps.endsMono {ok ok' : α → σ → Prop} {error : ε → σ → Prop}
    {p : Program (Except ε α)} {s : σ} (h : p.Keeps C (Ends ok error) s)
    (hok : ∀ a t, ok a t → ok' a t) : p.Keeps C (Ends ok' error) s := by
  refine h.mono fun r t hr => ?_
  cases r with
  | ok a => exact hok a t hr
  | error e => exact hr

/-- An error ends a sequence. -/
theorem Keeps.bindExcept {mid : α → σ → Prop} {ok : β → σ → Prop} {error : ε → σ → Prop}
    {p : ExceptT ε Program α} {f : α → ExceptT ε Program β} {s : σ}
    (h : p.run.Keeps C (Ends mid error) s)
    (hf : ∀ a t, mid a t → (f a).run.Keeps C (Ends ok error) t) :
    (p >>= f).run.Keeps C (Ends ok error) s := by
  rw [ExceptT.run_bind]
  refine h.bind fun r t ht => ?_
  cases r with
  | ok a => exact hf a t ht
  | error e => exact ht

end Program

/-- An access keeps a contract as part of a pass too. -/
theorem Pass.keeps_access {ok : α → σ → Prop} {error : PassError → σ → Prop} {p : Access α} {s : σ}
    (h : p.run.Keeps C (Program.Ends ok fun e => error (.store e)) s) :
    (access p).run.Keeps C (Program.Ends ok error) s := by
  have hrun : (access p).run = p.run >>= fun r => pure (r.mapError PassError.store) := rfl
  rw [hrun]
  refine h.bind fun r t hr => ?_
  cases r with
  | ok a => exact hr
  | error e => exact hr

/-- Attempts keep a contract when one does, and each conflict leads back to where an attempt
can be made. -/
theorem Retry.keeps_attempt {ready : σ → Prop} {post : α → σ → Prop} {conflict : α → Bool}
    {pause : Nat → Program Unit} {op : Program α}
    (hop : ∀ s, ready s → op.Keeps C (fun a t => post a t ∧ (conflict a = true → ready t)) s)
    (hpause : ∀ failures s, ready s → (pause failures).Keeps C (fun _ t => ready t) s)
    (more failures : Nat) {s : σ} (hs : ready s) :
    (Retry.attempt conflict pause op more failures).Keeps C post s := by
  induction more generalizing failures s with
  | zero => exact (hop s hs).mono fun _ _ h => h.1
  | succ more ih =>
    refine (hop s hs).bind fun a t ht => ?_
    by_cases hconflict : conflict a = true
    · rw [if_pos hconflict]
      exact (hpause failures t (ht.2 hconflict)).bind fun _ _ hready => ih (failures + 1) hready
    · rw [if_neg hconflict]
      exact ht.1

/-- What a contract has to say for a party that edits an object : `ready` holds before each
attempt, and `read` of the object that it has read. -/
structure Access.Edits (C : Contract σ) (kind : Kind) (key : Key)
    (edit : kind.Obj → kind.Obj × Bool) (ready : σ → Prop) (read : kind.Obj → σ → Prop)
    (post : Except StoreError (Option kind.Obj) → σ → Prop) : Prop where
  get : ∀ {s}, ready s → C.may s (.get kind key)
  missing : ∀ {s t}, ready s → C.next s (.get kind key) (.ok none) t → post (.ok none) t
  found : ∀ {s a t}, ready s → C.next s (.get kind key) (.ok (some a)) t → read a t
  failed : ∀ {s e t}, ready s → C.next s (.get kind key) (.error e) t →
    post (.error e) t ∧ (e.isConflict = true → ready t)
  /-- The object was left as it is. -/
  left : ∀ {a copy s}, read a s → edit a = (copy, false) → post (.ok (some copy)) s
  update : ∀ {a copy s}, read a s → edit a = (copy, true) → C.may s (.update kind copy)
  written : ∀ {a copy s b t}, read a s → edit a = (copy, true) →
    C.next s (.update kind copy) (.ok b) t → post (.ok (some b)) t
  refused : ∀ {a copy s e t}, read a s → edit a = (copy, true) →
    C.next s (.update kind copy) (.error e) t → post (.error e) t ∧ (e.isConflict = true → ready t)
  pause : ∀ {s failures}, ready s → C.may s (.pause failures)
  paused : ∀ {s failures t}, ready s → C.next s (.pause failures) () t → ready t

/-- Editing an object keeps a contract that provides for it. -/
theorem Access.Edits.keeps {kind : Kind} {key : Key} {edit : kind.Obj → kind.Obj × Bool}
    {ready : σ → Prop} {read : kind.Obj → σ → Prop}
    {post : Except StoreError (Option kind.Obj) → σ → Prop}
    (h : Edits C kind key edit ready read post) (retry : Retry) {s : σ} (hs : ready s) :
    (Access.edit retry kind key edit).run.Keeps C post s := by
  refine Retry.keeps_attempt (fun s hs => ?_) (fun failures s hs => ?_) _ _ hs
  · refine ⟨h.get hs, fun answer t ht => ?_⟩
    rcases answer with e | _ | a
    · exact h.failed hs ht
    · exact ⟨h.missing hs ht, fun hconflict => by cases hconflict⟩
    · have hat := h.found hs ht
      rcases hedit : edit a with ⟨copy, _ | _⟩
      · simp only [Program.bind, ExceptT.bindCont, hedit]
        exact ⟨h.left hat hedit, fun hconflict => by cases hconflict⟩
      · simp only [Program.bind, ExceptT.bindCont, hedit]
        refine ⟨h.update hat hedit, fun answer u hu => ?_⟩
        cases answer with
        | ok b => exact ⟨h.written hat hedit hu, fun hconflict => by cases hconflict⟩
        | error e => exact h.refused hat hedit hu
  · exact Program.keeps_ask (h.pause hs) fun _ t ht => h.paused hs ht

/-- What a contract has to say for a party that changes an object. -/
structure Access.Changes (C : Contract σ) (kind : Kind) (key : Key)
    (change : kind.Obj → Option kind.Obj) (ready : σ → Prop) (read : kind.Obj → σ → Prop)
    (post : Except StoreError (Option kind.Obj) → σ → Prop) : Prop where
  get : ∀ {s}, ready s → C.may s (.get kind key)
  missing : ∀ {s t}, ready s → C.next s (.get kind key) (.ok none) t → post (.ok none) t
  found : ∀ {s a t}, ready s → C.next s (.get kind key) (.ok (some a)) t → read a t
  failed : ∀ {s e t}, ready s → C.next s (.get kind key) (.error e) t →
    post (.error e) t ∧ (e.isConflict = true → ready t)
  /-- There is nothing to change. -/
  left : ∀ {a s}, read a s → change a = none → post (.ok (some a)) s
  update : ∀ {a b s}, read a s → change a = some b → C.may s (.update kind b)
  written : ∀ {a b s c t}, read a s → change a = some b → C.next s (.update kind b) (.ok c) t →
    post (.ok (some c)) t
  refused : ∀ {a b s e t}, read a s → change a = some b →
    C.next s (.update kind b) (.error e) t → post (.error e) t ∧ (e.isConflict = true → ready t)
  pause : ∀ {s failures}, ready s → C.may s (.pause failures)
  paused : ∀ {s failures t}, ready s → C.next s (.pause failures) () t → ready t

/-- Changing an object is editing it. -/
theorem Access.Changes.edits {kind : Kind} {key : Key} {change : kind.Obj → Option kind.Obj}
    {ready : σ → Prop} {read : kind.Obj → σ → Prop}
    {post : Except StoreError (Option kind.Obj) → σ → Prop}
    (h : Changes C kind key change ready read post) {edit : kind.Obj → kind.Obj × Bool}
    (hnone : ∀ a, change a = none → edit a = (a, false))
    (hsome : ∀ a b, change a = some b → edit a = (b, true)) :
    Edits C kind key edit ready read post := by
  have hwrites {a copy : kind.Obj} (hcopy : edit a = (copy, true)) : change a = some copy := by
    cases hchange : change a with
    | none => simp [hnone a hchange] at hcopy
    | some b => simpa [hsome a b hchange] using hcopy
  constructor
  case get => exact h.get
  case missing => exact h.missing
  case found => exact h.found
  case failed => exact h.failed
  case left =>
    intro a copy s hread hcopy
    cases hchange : change a with
    | none =>
      rw [hnone a hchange] at hcopy
      cases hcopy
      exact h.left hread hchange
    | some b => simp [hsome a b hchange] at hcopy
  case update => exact fun hread hcopy => h.update hread (hwrites hcopy)
  case written => exact fun hread hcopy => h.written hread (hwrites hcopy)
  case refused => exact fun hread hcopy => h.refused hread (hwrites hcopy)
  case pause => exact h.pause
  case paused => exact h.paused

/-- Changing an object keeps a contract that provides for it. -/
theorem Access.Changes.keeps {kind : Kind} {key : Key} {change : kind.Obj → Option kind.Obj}
    {ready : σ → Prop} {read : kind.Obj → σ → Prop}
    {post : Except StoreError (Option kind.Obj) → σ → Prop}
    (h : Changes C kind key change ready read post) (retry : Retry) {s : σ} (hs : ready s) :
    (Access.modify retry kind key change).run.Keeps C post s :=
  (h.edits (fun a ha => by simp only [ha]) fun a b hb => by simp only [hb]).keeps retry hs

/-! ## Requests that make no difference -/

/-- The party may make the request, and knows after it what it knew before. -/
structure Contract.Ignores (C : Contract σ) (s : σ) (request : Request) : Prop where
  may : C.may s request
  next : ∀ answer t, C.next s request answer t → t = s

namespace Pass

variable {s : σ} {error : PassError → σ → Prop}

theorem keeps_ignored {request : Request} (h : C.Ignores s request) :
    (ask request).run.Keeps C (Program.Ends (fun _ t => t = s) error) s :=
  ⟨h.may, fun answer t ht => h.next answer t ht⟩

theorem keeps_release {owner : Key} {ports : List Port} (h : C.Ignores s (.release owner ports)) :
    (release owner ports).run.Keeps C (Program.Ends (fun _ t => t = s) error) s :=
  (keeps_ignored h).bindExcept fun _ _ ht => ht

theorem keeps_release_throw {ok : α → σ → Prop} {owner : Key} {ports : List Port}
    {cause : PassError} (h : C.Ignores s (.release owner ports)) (herror : error cause s) :
    (release owner ports >>= fun _ => (throw cause : Pass α)).run.Keeps C
      (Program.Ends ok error) s :=
  (keeps_release h).bindExcept fun _ t ht => by
    rw [ht]
    exact herror

/-- Ports are taken one after the other. What `held` says of those taken so far it says of all of
them at the end, if each port that is handed out keeps it so. When there is none, those taken so
far are given back. -/
theorem keeps_allocate_held {held : List Port → σ → Prop} {owner : Key} {total : Nat}
    (hmay : ∀ {ports s}, held ports s → C.may s (.allocate owner))
    (hok : ∀ {ports s p t}, ports.length < total → held ports s →
      C.next s (.allocate owner) (.ok p) t → held (ports ++ [p]) t)
    (hfailed : ∀ {ports s cause t}, ports.length < total → held ports s →
      C.next s (.allocate owner) (.error cause) t →
      (release owner ports).run.Keeps C (Program.Ends (fun _ => error (.ports cause)) error) t)
    {n : Nat} {taken : List Port} (htotal : taken.length + n = total) (hs : held taken s) :
    (allocate owner n taken).run.Keeps C
      (Program.Ends (fun ports t => ports.length = total ∧ held ports t) error) s := by
  induction n generalizing s taken with
  | zero => exact ⟨htotal, hs⟩
  | succ n ih =>
    have hasked : (ask (.allocate owner)).run.Keeps C (Program.Ends
        (fun answer t => C.next s (.allocate owner) answer t) error) s :=
      ⟨hmay hs, fun _ _ ht => ht⟩
    refine hasked.bindExcept fun answer t ht => ?_
    cases answer with
    | ok p =>
      have hlength : (taken ++ [p]).length + n = total := by
        rw [← htotal, List.length_append, List.length_singleton]
        omega
      exact ih hlength (hok (by omega) hs ht)
    | error cause =>
      exact (hfailed (by omega) hs ht).bindExcept fun _ _ hu => hu

/-- To take ports makes no difference to who does not care about them. -/
theorem keeps_allocate {owner : Key} (hallocate : C.Ignores s (.allocate owner))
    (hrelease : ∀ ports, C.Ignores s (.release owner ports)) (herror : ∀ cause, error cause s)
    (n : Nat) (taken : List Port) :
    (allocate owner n taken).run.Keeps C (Program.Ends (fun _ t => t = s) error) s := by
  have hheld : (allocate owner n taken).run.Keeps C (Program.Ends
      (fun ports t => ports.length = taken.length + n ∧ t = s) error) s := by
    refine keeps_allocate_held (fun hs => hs ▸ hallocate.may) ?_ ?_ rfl rfl
    · rintro ports _ p t - rfl ht
      exact hallocate.next _ _ ht
    · rintro ports _ cause t - rfl ht
      obtain rfl := hallocate.next _ _ ht
      exact (keeps_release (hrelease ports)).endsMono fun _ _ hu => hu ▸ herror _
  exact hheld.endsMono fun _ _ ht => ht.2

end Pass

end GameFleet
