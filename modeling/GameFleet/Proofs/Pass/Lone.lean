import GameFleet.Pass.Reconciler
import GameFleet.Proofs.Pass.Alone

/-!
# Single runs of programs alone

`Program.Lone` is one run of a program that runs alone : what it ends with, and the world then.
A run of a sequence is a run of its first part and then one of the second (`Lone.of_bindExcept`),
and a program that succeeds has runs, which end as it says (`Lone.of_succeeds`).

No run takes a write back, since the versions of the stores only grow (`Lone.grows`). So who has
written something at some time has done so in the end (`World.Wrote`).

A pass rests if it may end well without a write, and it stirs if it may write something
(`Reconciler.Rests`, `Reconciler.Stirs`).
-/

namespace GameFleet

variable {α β ε : Type} {owner : Key} {w u v : World}

/-! ## Writes -/

/-- A store has had more writes since. -/
def World.Wrote (w v : World) : Prop := ∃ kind, (w.stores kind).version < (v.stores kind).version

theorem World.Wrote.ne (h : w.Wrote v) : v.stores ≠ w.stores := by
  obtain ⟨kind, hlt⟩ := h
  intro heq
  rw [heq] at hlt
  exact Nat.lt_irrefl _ hlt

theorem World.wrote_changed (w : World) (kind : Kind) (c : Change kind.Obj) :
    w.Wrote (w.changed kind c) :=
  ⟨kind, by rw [stores_changed, Store.version_commit]; exact Nat.lt_succ_self _⟩

theorem Store.version_of_create {κ : Type} [Resource κ] {s t : Store κ} {birth : Birth} {a : κ}
    {c : Change κ} (h : s.create birth a = .ok (c, t)) : t.version = s.version + 1 := by
  rw [(Store.create_eq_ok h).2.2, Store.version_commit]

theorem Store.version_of_update {κ : Type} [Resource κ] {s t : Store κ} {a : κ} {c : Change κ}
    (h : s.update a = .ok (c, t)) : t.version = s.version + 1 := by
  obtain ⟨_, _, _, _, rfl⟩ := Store.update_eq_ok h
  rfl

theorem Store.version_of_delete {κ : Type} [Resource κ] {s t : Store κ} {k : Key} {c : Change κ}
    (h : s.delete k = .ok (c, t)) : t.version = s.version + 1 := by
  unfold Store.delete at h
  split at h
  · cases h
  · cases h
    rfl

namespace World

variable {kind : Kind} {outcome : Except StoreError (Change kind.Obj × Store kind.Obj)}

theorem version_le_written
    (h : ∀ c s, outcome = .ok (c, s) → s.version = (w.stores kind).version + 1) (other : Kind) :
    (w.stores other).version ≤ ((w.written kind outcome).stores other).version := by
  cases outcome with
  | error cause => exact le_rfl
  | ok result =>
    obtain ⟨c, s⟩ := result
    by_cases hkind : other = kind
    · subst hkind
      rw [written, stores_commit, h c s rfl]
      exact Nat.le_succ _
    · rw [written, stores_commit_of_ne w hkind]

/-- A write that went well is a write. -/
theorem wrote_written
    (h : ∀ c s, outcome = .ok (c, s) → s.version = (w.stores kind).version + 1) {f : _ → α} {a : α}
    (hok : outcome.map f = .ok a) : w.Wrote (w.written kind outcome) := by
  cases outcome with
  | error cause => cases hok
  | ok result =>
    obtain ⟨c, s⟩ := result
    exact ⟨kind, by rw [written, stores_commit, h c s rfl]; exact Nat.lt_succ_self _⟩

namespace Attends

/-- An answer takes no write back. -/
theorem grows {request : Request} {answer : request.Answer} (h : w.Attends owner request answer v)
    (kind : Kind) : (w.stores kind).version ≤ (v.stores kind).version := by
  cases h with
  | create birth => exact version_le_written (fun _ _ hw => Store.version_of_create hw) kind
  | update => exact version_le_written (fun _ _ hw => Store.version_of_update hw) kind
  | delete => exact version_le_written (fun _ _ hw => Store.version_of_delete hw) kind
  | _ => exact le_rfl

theorem wrote_create {a b : kind.Obj} {answer : Except StoreError kind.Obj}
    (h : w.Attends owner (.create kind a) answer v) (hok : answer = .ok b) : w.Wrote v := by
  cases h
  exact wrote_written (fun _ _ hw => Store.version_of_create hw) hok

theorem wrote_update {a b : kind.Obj} {answer : Except StoreError kind.Obj}
    (h : w.Attends owner (.update kind a) answer v) (hok : answer = .ok b) : w.Wrote v := by
  cases h
  exact wrote_written (fun _ _ hw => Store.version_of_update hw) hok

theorem wrote_delete {key : Key} {answer : Except StoreError Unit}
    (h : w.Attends owner (.delete kind key) answer v) (hok : answer = .ok ()) : w.Wrote v := by
  cases h
  exact wrote_written (fun _ _ hw => Store.version_of_delete hw) hok

end Attends

end World

/-! ## Runs -/

namespace Program

/-- The program, run alone, may end with this result, and in this world. -/
inductive Lone (owner : Key) : Program α → World → α → World → Prop where
  | done (a : α) (w : World) : Lone owner (.done a) w a w
  | call {request : Request} {next : request.Answer → Program α} {w v u : World}
    {answer : request.Answer} {a : α} (hanswer : w.Attends owner request answer v)
    (hnext : Lone owner (next answer) v a u) : Lone owner (.call request next) w a u

namespace Lone

theorem grows {p : Program α} {a : α} (h : Lone owner p w a v) (kind : Kind) :
    (w.stores kind).version ≤ (v.stores kind).version := by
  induction h with
  | done a w => exact le_rfl
  | call hanswer _ ih => exact (hanswer.grows kind).trans ih

theorem of_bind {p : Program α} {f : α → Program β} {b : β} (h : Lone owner (p.bind f) w b v) :
    ∃ a u, Lone owner p w a u ∧ Lone owner (f a) u b v := by
  induction p generalizing w with
  | done a => exact ⟨a, w, .done a w, h⟩
  | call request next ih =>
    cases h with
    | call hanswer hnext =>
      obtain ⟨a, u, hfirst, hthen⟩ := ih _ hnext
      exact ⟨a, u, .call hanswer hfirst, hthen⟩

/-- A sequence runs to its end, or ends with an error of its first part. -/
theorem of_bindExcept {p : ExceptT ε Program α} {f : α → ExceptT ε Program β} {r : Except ε β}
    (h : Lone owner (p >>= f).run w r v) :
    (∃ a u, Lone owner p.run w (.ok a) u ∧ Lone owner (f a).run u r v) ∨
      ∃ e, Lone owner p.run w (.error e) v ∧ r = .error e := by
  rw [ExceptT.run_bind] at h
  obtain ⟨result, u, hfirst, hthen⟩ := of_bind h
  cases result with
  | ok a => exact .inl ⟨a, u, hfirst, hthen⟩
  | error e =>
    cases hthen
    exact .inr ⟨e, hfirst, rfl⟩

theorem of_bind_ok {p : ExceptT ε Program α} {f : α → ExceptT ε Program β} {b : β}
    (h : Lone owner (p >>= f).run w (.ok b) v) :
    ∃ a u, Lone owner p.run w (.ok a) u ∧ Lone owner (f a).run u (.ok b) v := by
  rcases of_bindExcept h with hok | ⟨e, -, he⟩
  · exact hok
  · cases he

/-- What was written is not taken back. -/
theorem wrote {p : Program α} {a : α} (h : Lone owner p u a v) (hwrote : w.Wrote u) : w.Wrote v :=
  hwrote.imp fun kind hlt => hlt.trans_le (h.grows kind)

/-- What was written in the first part of a sequence was written in the end. -/
theorem wrote_of_first {p : ExceptT ε Program α} {f : α → ExceptT ε Program β} {r : Except ε β}
    (h : Lone owner (p >>= f).run w r v) (hp : ∀ r u, Lone owner p.run w r u → w.Wrote u) :
    w.Wrote v := by
  rcases of_bindExcept h with ⟨a, u, hfirst, hthen⟩ | ⟨e, hfirst, -⟩
  · exact hthen.wrote (hp _ _ hfirst)
  · exact hp _ _ hfirst

theorem of_keeps {p : Program α} {post : α → World → Prop} {a : α}
    (h : p.Keeps (World.alone owner) post w) (hrun : Lone owner p w a v) : post a v := by
  induction hrun with
  | done a w => exact h
  | call hanswer _ ih => exact ih (h.2 _ _ hanswer)

theorem exists_of_keeps {p : Program α} {post : α → World → Prop}
    (h : p.Keeps (World.alone owner) post w) : ∃ a v, Lone owner p w a v := by
  induction p generalizing w with
  | done a => exact ⟨a, w, .done a w⟩
  | call request next ih =>
    obtain ⟨⟨answer, u, hanswer⟩, hnext⟩ := h
    obtain ⟨a, v, hrun⟩ := ih answer (hnext answer u hanswer)
    exact ⟨a, v, .call hanswer hrun⟩

/-- A run of a program that succeeds ends as the program says. -/
theorem of_succeeds {p : ExceptT ε Program α} {post : α → World → Prop} {r : Except ε α}
    (h : Succeeds owner p post w) (hrun : Lone owner p.run w r v) : ∃ a, r = .ok a ∧ post a v := by
  have hends := of_keeps h hrun
  cases r with
  | ok a => exact ⟨a, rfl, hends⟩
  | error e => exact hends.elim

/-- A program that succeeds has a run. -/
theorem exists_of_succeeds {p : ExceptT ε Program α} {post : α → World → Prop}
    (h : Succeeds owner p post w) : ∃ a v, Lone owner p.run w (.ok a) v ∧ post a v := by
  obtain ⟨r, v, hrun⟩ := exists_of_keeps h
  obtain ⟨a, rfl, hpost⟩ := of_succeeds h hrun
  exact ⟨a, v, hrun, hpost⟩

end Lone

end Program

/-! ## Requests -/

namespace Pass

open Program (Lone)

variable {kind : Kind} {key : Key}

theorem lone_ask {request : Request} {r : Except PassError request.Answer}
    (h : Lone owner (ask request).run w r v) :
    ∃ answer, r = .ok answer ∧ w.Attends owner request answer v := by
  cases h with
  | call hanswer hnext =>
    cases hnext
    exact ⟨_, rfl, hanswer⟩

theorem lone_cached {r : Except PassError (Option kind.Obj)}
    (h : Lone owner (cached kind key).run w r v) :
    r = .ok ((w.stores kind).get? key) ∧ v = w := by
  have hsucceeds : Succeeds owner (cached kind key)
      (fun found v => found = (w.stores kind).get? key ∧ v = w) w := succeeds_cached ⟨rfl, rfl⟩
  obtain ⟨found, rfl, rfl, rfl⟩ := Lone.of_succeeds hsucceeds h
  exact ⟨rfl, rfl⟩

theorem lone_list {ns : String} {selector : Selector} {r : Except PassError (List kind.Obj)}
    (h : Lone owner (access (.list kind ns selector)).run w r v) :
    r = .ok ((w.stores kind).objects.list (some ns) selector) ∧ v = w := by
  have hsucceeds : Succeeds owner (access (.list kind ns selector))
      (fun found v => found = (w.stores kind).objects.list (some ns) selector ∧ v = w) w :=
    succeeds_list ⟨rfl, rfl⟩
  obtain ⟨found, rfl, rfl, rfl⟩ := Lone.of_succeeds hsucceeds h
  exact ⟨rfl, rfl⟩

theorem lone_cachedList {ns : String} {selector : Selector} {r : Except PassError (List kind.Obj)}
    (h : Lone owner (cachedList kind ns selector).run w r v) :
    r = .ok ((w.stores kind).objects.list (some ns) selector) ∧ v = w := by
  have hsucceeds : Succeeds owner (cachedList kind ns selector)
      (fun found v => found = (w.stores kind).objects.list (some ns) selector ∧ v = w) w :=
    succeeds_cachedList ⟨rfl, rfl⟩
  obtain ⟨found, rfl, rfl, rfl⟩ := Lone.of_succeeds hsucceeds h
  exact ⟨rfl, rfl⟩

/-- An object that is stored is changed, or left when there is nothing to change. -/
theorem lone_modify {retry : Retry} {change : kind.Obj → Option kind.Obj} {a : kind.Obj}
    {r : Except PassError (Option kind.Obj)} (ha : (w.stores kind).get? key = some a)
    (hkept : ∀ b, change a = some b → Resource.key b = key ∧
      Resource.version b = Resource.version a)
    (h : Lone owner (access (.modify retry kind key change)).run w r v) :
    change a = none ∧ r = .ok (some a) ∧ v = w ∨ change a ≠ none ∧ w.Wrote v := by
  have hsucceeds : Succeeds owner (access (.modify retry kind key change))
      (fun found v => change a = none ∧ found = some a ∧ v = w ∨ change a ≠ none ∧ w.Wrote v) w :=
    succeeds_modify ha (fun hnone => .inl ⟨hnone, rfl, rfl⟩) fun b hb =>
      ⟨(hkept b hb).1, (hkept b hb).2, .inr ⟨hb ▸ Option.some_ne_none b, w.wrote_changed kind _⟩⟩
  obtain ⟨found, rfl, hends⟩ := Lone.of_succeeds hsucceeds h
  exact hends.imp_left fun ⟨hnone, hfound, hv⟩ => ⟨hnone, congrArg _ hfound, hv⟩

/-- An object that is stored and has something to change is written. -/
theorem wrote_modify {retry : Retry} {change : kind.Obj → Option kind.Obj} {a b : kind.Obj}
    {r : Except PassError (Option kind.Obj)} (ha : (w.stores kind).get? key = some a)
    (hb : change a = some b) (hkey : Resource.key b = key)
    (hversion : Resource.version b = Resource.version a)
    (h : Lone owner (access (.modify retry kind key change)).run w r v) : w.Wrote v := by
  have hkept : ∀ b, change a = some b → Resource.key b = key ∧
      Resource.version b = Resource.version a := by
    intro b' hb'
    rw [hb] at hb'
    cases hb'
    exact ⟨hkey, hversion⟩
  rcases lone_modify ha hkept h with ⟨hnone, -⟩ | ⟨-, hwrote⟩
  · rw [hb] at hnone
    cases hnone
  · exact hwrote

/-- What was thrown is no success. -/
theorem not_lone_throw {p : Pass β} {e : PassError} {a : α} :
    ¬Lone owner (p >>= fun _ => (throw e : Pass α)).run w (.ok a) v := by
  intro h
  obtain ⟨b, u, -, hthrow⟩ := Lone.of_bind_ok h
  cases hthrow

end Pass

/-! ## Passes -/

namespace Reconciler

/-- The pass over a key, run alone, may end well and leave the stores as they are. -/
def Rests (r : Reconciler) (context : PassContext) (key : Key) (w : World) : Prop :=
  ∃ v, (r.pass context key).run.Lone key w (.ok ()) v ∧ v.stores = w.stores

/-- The pass over a key, run alone, may write to a store, whether or not it ends well. -/
def Stirs (r : Reconciler) (context : PassContext) (key : Key) (w : World) : Prop :=
  ∃ result v, (r.pass context key).run.Lone key w result v ∧ v.stores ≠ w.stores

variable {r : Reconciler} {context : PassContext} {key : Key} {w : World}

/-- A pass that leaves everything as it is rests. -/
theorem rests_of_succeeds (h : Succeeds key (r.pass context key) (fun _ v => v = w) w) :
    r.Rests context key w := by
  obtain ⟨_, v, hrun, rfl⟩ := Program.Lone.exists_of_succeeds h
  exact ⟨v, hrun, rfl⟩

/-- It does not stir, whatever it runs into. -/
theorem not_stirs_of_succeeds (h : Succeeds key (r.pass context key) (fun _ v => v = w) w) :
    ¬r.Stirs context key w := by
  rintro ⟨result, v, hrun, hwritten⟩
  obtain ⟨-, -, rfl⟩ := Program.Lone.of_succeeds h hrun
  exact hwritten rfl

/-- A pass that succeeds and cannot rest stirs. -/
theorem stirs_of_not_rests {post : Unit → World → Prop}
    (h : Succeeds key (r.pass context key) post w) (hnot : ¬r.Rests context key w) :
    r.Stirs context key w := by
  obtain ⟨_, v, hrun, -⟩ := Program.Lone.exists_of_succeeds h
  exact ⟨_, v, hrun, fun hsame => hnot ⟨v, hrun, hsame⟩⟩

end Reconciler

end GameFleet
