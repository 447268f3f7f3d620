import GameFleet.Proofs.Plane.Chronicle

/-!
# The attempts of a call

A call of `Access.edit` makes attempts. Each one reads the object and, if it has something to write,
writes it (`Access.editOnce_leads`). All attempts but the last one end in a conflict, and so does the
last one only if there can be no more of them (`Access.edit_leads`).

A call asks for a limited number of things, whatever it is answered (`Access.asks_edit`).
-/

namespace GameFleet

namespace Program

variable {α β : Type}

/-- Whatever it is answered, the program makes so many requests at most, and all of them are such. -/
def Asks (may : Request → Prop) : Nat → Program α → Prop
  | _, .done _ => True
  | 0, .call _ _ => False
  | n + 1, .call request next => may request ∧ ∀ answer, (next answer).Asks may n

theorem Asks.mono {may : Request → Prop} {n m : Nat} {p : Program α} (h : p.Asks may n)
    (hnm : n ≤ m) : p.Asks may m := by
  induction p generalizing n m with
  | done a => cases m <;> trivial
  | call request next ih =>
    obtain _ | n := n
    · exact h.elim
    · obtain ⟨m, rfl⟩ := Nat.exists_eq_add_of_le' (Nat.le_trans (Nat.succ_pos n) hnm)
      exact ⟨h.1, fun answer => ih answer (h.2 answer) (by omega)⟩

/-- Every request that is answered is one less. -/
theorem Leads.asks {may : Request → Prop} {n : Nat} {p q : Program α} {past : List Exchange}
    (h : p.Leads past q) (hp : p.Asks may n) : past.length ≤ n ∧ q.Asks may (n - past.length) := by
  induction h generalizing n with
  | nil p => exact ⟨Nat.zero_le n, hp⟩
  | cons h ih =>
    obtain _ | n := n
    · exact hp.elim
    · obtain ⟨hlength, hq⟩ := ih (hp.2 _)
      rw [List.length_cons, Nat.add_sub_add_right]
      exact ⟨Nat.succ_le_succ hlength, hq⟩

theorem Asks.bind {may : Request → Prop} {n m : Nat} {p : Program α} {f : α → Program β}
    (h : p.Asks may n) (hf : ∀ a, (f a).Asks may m) : (p >>= f).Asks may (n + m) := by
  induction p generalizing n with
  | done a => exact (hf a).mono (Nat.le_add_left m n)
  | call request next ih =>
    obtain _ | n := n
    · exact h.elim
    · rw [Nat.add_right_comm]
      exact ⟨h.1, fun answer => ih answer (h.2 answer)⟩

end Program

/-! ## Attempts -/

/-- A read or a write that failed as someone else had written. -/
def Exchange.isConflict : Exchange → Bool
  | ⟨.get _ _, .error e⟩ => e.isConflict
  | ⟨.update _ _, .error e⟩ => e.isConflict
  | _ => false

namespace Access

variable {kind : Kind} {key : Key} {edit : kind.Obj → kind.Obj × Bool}

/-- What an attempt asks for and is answered, and what it comes to. -/
inductive Attempt (kind : Kind) (key : Key) (edit : kind.Obj → kind.Obj × Bool) :
    List Exchange → Except StoreError (Option kind.Obj) → Prop where
  | missing : Attempt kind key edit [⟨.get kind key, .ok none⟩] (.ok none)
  | failed (e : StoreError) : Attempt kind key edit [⟨.get kind key, .error e⟩] (.error e)
  | left (a copy : kind.Obj) (h : edit a = (copy, false)) :
    Attempt kind key edit [⟨.get kind key, .ok (some a)⟩] (.ok (some copy))
  | written (a copy b : kind.Obj) (h : edit a = (copy, true)) :
    Attempt kind key edit [⟨.get kind key, .ok (some a)⟩, ⟨.update kind copy, .ok b⟩] (.ok (some b))
  | refused (a copy : kind.Obj) (e : StoreError) (h : edit a = (copy, true)) :
    Attempt kind key edit [⟨.get kind key, .ok (some a)⟩, ⟨.update kind copy, .error e⟩] (.error e)

theorem editOnce_leads {past : List Exchange} {result : Except StoreError (Option kind.Obj)}
    (h : (editOnce kind key edit).run.Leads past (.done result)) :
    Attempt kind key edit past result := by
  cases h with
  | @cons _ _ answer past _ h =>
    rcases answer with e | _ | a
    · cases h
      exact .failed e
    · cases h
      exact .missing
    · rcases hedit : edit a with ⟨copy, _ | _⟩
      · simp only [Program.bind, ExceptT.bindCont, hedit] at h
        cases h
        exact .left a copy hedit
      · simp only [Program.bind, ExceptT.bindCont, hedit] at h
        cases h with
        | @cons _ _ answer past _ h =>
          cases answer with
          | ok b =>
            cases h
            exact .written a copy b hedit
          | error e =>
            cases h
            exact .refused a copy e hedit

/-- An attempt has a conflict if it ends in one. -/
theorem Attempt.countP_isConflict {past : List Exchange}
    {result : Except StoreError (Option kind.Obj)} (h : Attempt kind key edit past result) :
    past.countP Exchange.isConflict = if isConflict result then 1 else 0 := by
  cases h with
  | missing => rfl
  | failed e => cases e <;> rfl
  | left a copy h => rfl
  | written a copy b h => rfl
  | refused a copy e h => cases e <;> rfl

/-- The induction is on the attempts that are left : each of them is made after a conflict. -/
theorem attempt_leads (more failures : Nat) {past : List Exchange}
    {result : Except StoreError (Option kind.Obj)}
    (h : (Retry.attempt (m := Program) isConflict (fun failures => .ask (.pause failures))
      (editOnce kind key edit) more failures).Leads past (.done result)) :
    ∃ earlier last, past = earlier ++ last ∧ Attempt kind key edit last result ∧
      (isConflict result = true → earlier.countP Exchange.isConflict = more) := by
  induction more generalizing failures past with
  | zero => exact ⟨[], past, rfl, editOnce_leads h, fun _ => rfl⟩
  | succ more ih =>
    obtain ⟨first, rest, outcome, rfl, hfirst, hrest⟩ := h.exists_split
    have hcount := (editOnce_leads hfirst).countP_isConflict
    by_cases hconflict : isConflict outcome = true
    · rw [if_pos hconflict] at hrest
      obtain ⟨pause, rest, answer, rfl, hpause, hrest⟩ := hrest.exists_split
      obtain ⟨earlier, last, rfl, hlast, hmore⟩ := ih _ hrest
      refine ⟨first ++ pause ++ earlier, last, by simp, hlast, fun hresult => ?_⟩
      have hpauses : pause.countP Exchange.isConflict = 0 := by
        cases hpause with
        | cons hdone =>
          cases hdone
          rfl
      rw [List.countP_append, List.countP_append, hcount, if_pos hconflict, hpauses, hmore hresult]
      omega
    · rw [if_neg hconflict] at hrest
      cases hrest
      exact ⟨[], first, by simp, editOnce_leads hfirst, fun hresult => absurd hresult hconflict⟩

/-- A call ends with an attempt, and with a conflict only if all attempts have had one. -/
theorem edit_leads {retry : Retry} {past : List Exchange}
    {result : Except StoreError (Option kind.Obj)}
    (h : (Access.edit retry kind key edit).run.Leads past (.done result)) :
    ∃ earlier last, past = earlier ++ last ∧ Attempt kind key edit last result ∧
      (isConflict result = true → past.countP Exchange.isConflict = max retry.attempts 1) := by
  obtain ⟨earlier, last, rfl, hlast, hmore⟩ := attempt_leads _ _ h
  refine ⟨earlier, last, rfl, hlast, fun hresult => ?_⟩
  rw [List.countP_append, hlast.countP_isConflict, if_pos hresult, hmore hresult]
  omega

/-! ## How much a call asks for -/

/-- What a call of `Access.edit` asks for. -/
inductive Needs (kind : Kind) : Request → Prop where
  | get (key : Key) : Needs kind (.get kind key)
  | update (a : kind.Obj) : Needs kind (.update kind a)
  | pause (failures : Nat) : Needs kind (.pause failures)

theorem asks_editOnce : (editOnce kind key edit).run.Asks (Needs kind) 2 := by
  refine ⟨.get key, fun answer => ?_⟩
  rcases answer with e | _ | a
  · trivial
  · trivial
  · rcases hedit : edit a with ⟨copy, _ | _⟩
    · simp only [Program.bind, ExceptT.bindCont, hedit]
      trivial
    · simp only [Program.bind, ExceptT.bindCont, hedit]
      refine ⟨.update copy, fun answer => ?_⟩
      cases answer <;> trivial

theorem asks_attempt (more failures : Nat) :
    (Retry.attempt (m := Program) isConflict (fun failures => .ask (.pause failures))
      (editOnce kind key edit) more failures).Asks (Needs kind) (3 * more + 2) := by
  induction more generalizing failures with
  | zero => exact asks_editOnce
  | succ more ih =>
    have hnext (outcome : Except StoreError (Option kind.Obj)) : (if isConflict outcome then
        (.ask (.pause failures) : Program Unit) >>= fun _ =>
          Retry.attempt (m := Program) isConflict (fun failures => .ask (.pause failures))
            (editOnce kind key edit) more (failures + 1)
        else pure outcome).Asks (Needs kind) (3 * more + 3) := by
      split
      · exact ⟨.pause failures, fun _ => ih (failures + 1)⟩
      · trivial
    exact (asks_editOnce.bind hnext).mono (by omega)

theorem asks_edit (retry : Retry) :
    (Access.edit retry kind key edit).run.Asks (Needs kind) (3 * max retry.attempts 1 - 1) :=
  (asks_attempt (retry.attempts - 1) 0).mono (by omega)

end Access

end GameFleet
