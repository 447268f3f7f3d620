import GameFleet.Proofs.Store.Vanishing

/-!
# Calls that lose to other writes

An operation that is tried again after conflicts is called until its outcome is none, or as often
as the policy allows, with a pause before each call but the first (`Retry.run_journal`).

So a call of `Access.edit` that returns a conflict has made as many attempts as it has. Each of
them has read an object and was refused when it wrote, which in a `Race` says that the object was
written in between (`Race.Faithful.changed_of_refused`). The attempts come one after the other, so
these are different writes, and none of them is one of the call itself
(`Race.contended_of_run`).
-/

open Relation

namespace GameFleet

/-! ## Calls and pauses -/

namespace Retry

/-- What happens while an operation is tried again. -/
inductive Effect (α : Type) where
  | called (outcome : α)
  | paused (milliseconds : Nat)
  deriving DecidableEq

variable {α : Type}

def Effect.isCall : Effect α → Bool
  | .called _ => true
  | .paused _ => false

/-- An operation whose calls have given outcomes, one after the other. -/
def scripted (outcomes : Nat → α) : StateM (List (Effect α)) α := fun journal =>
  let outcome := outcomes (journal.countP Effect.isCall)
  (outcome, journal ++ [.called outcome])

/-- The pause of a policy. -/
def pausing (b : Backoff) (noise : Nat → Rat) (failures : Nat) : StateM (List (Effect α)) Unit :=
  fun journal => ((), journal ++ [.paused (b.delay failures (noise failures))])

/-- So many calls, each with the pause after it. -/
def rounds (b : Backoff) (noise : Nat → Rat) (outcomes : Nat → α) (n : Nat) : List (Effect α) :=
  (List.range n).flatMap fun i => [.called (outcomes i), .paused (b.delay i (noise i))]

variable (b : Backoff) (noise : Nat → Rat) (outcomes : Nat → α)

theorem rounds_succ (n : Nat) : rounds b noise outcomes (n + 1) =
    rounds b noise outcomes n ++ [.called (outcomes n), .paused (b.delay n (noise n))] := by
  rw [rounds, List.range_succ, List.flatMap_append, List.flatMap_singleton, ← rounds]

theorem countP_rounds (n : Nat) : (rounds b noise outcomes n).countP Effect.isCall = n := by
  induction n with
  | zero => rfl
  | succ n ih => rw [rounds_succ, List.countP_append, ih]; rfl

theorem scripted_rounds (n : Nat) : scripted outcomes (rounds b noise outcomes n) =
    (outcomes n, rounds b noise outcomes n ++ [.called (outcomes n)]) := by
  rw [scripted, countP_rounds]

/-- The induction is on the attempts that are left. -/
theorem attempt_journal (conflict : α → Bool) (more failures : Nat) :
    ∃ n, failures ≤ n ∧ n ≤ failures + more ∧
      (∀ i, failures ≤ i → i < n → conflict (outcomes i) = true) ∧
      (conflict (outcomes n) = true → n = failures + more) ∧
      attempt conflict (pausing b noise) (scripted outcomes) more failures
          (rounds b noise outcomes failures) =
        (outcomes n, rounds b noise outcomes n ++ [.called (outcomes n)]) := by
  induction more generalizing failures with
  | zero =>
    exact ⟨failures, le_rfl, le_rfl, fun i hi hi' => absurd hi' (by omega), fun _ => rfl,
      scripted_rounds b noise outcomes failures⟩
  | succ more ih =>
    have hcall := scripted_rounds b noise outcomes failures
    by_cases hconflict : conflict (outcomes failures) = true
    · obtain ⟨n, hn, hn', hconflicts, hlast, hrun⟩ := ih (failures + 1)
      refine ⟨n, by omega, by omega, fun i hi hi' => ?_, fun h => ?_, ?_⟩
      · obtain rfl | hi := Nat.eq_or_lt_of_le hi
        · exact hconflict
        · exact hconflicts i hi hi'
      · have := hlast h
        omega
      · rw [rounds_succ] at hrun
        simp only [attempt, bind, StateT.bind, hcall, hconflict, if_true, pausing,
          List.append_assoc, List.singleton_append]
        exact hrun
    · refine ⟨failures, le_rfl, by omega, fun i hi hi' => absurd hi' (by omega),
        fun h => absurd h hconflict, ?_⟩
      simp only [attempt, bind, StateT.bind, hcall, hconflict]
      rfl

end Retry

/-! ## Changes of a key -/

namespace Store

variable {α : Type} [Resource α] {log : List (Change α)} {k : Key}

/-- How many changes about a key the log has between two moments. -/
def changesOf (log : List (Change α)) (k : Key) (n m : Nat) : Nat :=
  ((log.take m).drop n).countP fun c => decide (Resource.key c.object = k)

theorem changesOf_add {n l m : Nat} (hnl : n ≤ l) (hlm : l ≤ m) (hm : m ≤ log.length) :
    changesOf log k n m = changesOf log k n l + changesOf log k l m := by
  have htake : log.take m = log.take l ++ (log.take m).drop l := by
    conv_lhs => rw [← List.take_append_drop l (log.take m), List.take_take, Nat.min_eq_left hlm]
  have hlength : n ≤ (log.take l).length := by
    rw [List.length_take]
    omega
  unfold changesOf
  rw [htake, List.drop_append_of_le_length hlength, List.countP_append, ← htake]

theorem changesOf_mono {n n' m m' : Nat} (hn : n ≤ n') (hnm : n' ≤ m') (hm : m' ≤ m)
    (hlog : m ≤ log.length) : changesOf log k n' m' ≤ changesOf log k n m := by
  rw [changesOf_add (hn.trans hnm) hm hlog, changesOf_add hn hnm (hm.trans hlog)]
  omega

theorem changesOf_pos {n m : Nat} (h : Changed log k n m) : 0 < changesOf log k n m := by
  obtain ⟨i, c, hni, him, hc, hkey⟩ := h
  refine List.countP_pos_iff.2 ⟨c, ?_, by simpa using hkey⟩
  refine List.mem_of_getElem? (i := i - n) ?_
  rw [List.getElem?_drop, List.getElem?_take, if_pos (by omega), Nat.add_sub_cancel' hni, hc]

end Store

/-! ## Attempts that are refused -/

namespace Race

variable {kind : Kind} {key : Key} {edit : kind.Obj → kind.Obj × Bool} {r : Race kind}
  {call : Program (Except StoreError (Option kind.Obj))}

/-- The call has written, and its write was served. -/
def Wrote (kind : Kind) (t : Timed) : Prop :=
  ∃ a b : kind.Obj, t.exchange = ⟨.update kind a, .ok b⟩

/-- A write that is refused was overtaken since the object was read. -/
theorem Faithful.changed_of_refused (h : r.Faithful call) {n m : Nat} {a copy : kind.Obj}
    {e : StoreError} (hnm : n ≤ m)
    (hread : ⟨n, ⟨.get kind key, .ok (some a)⟩⟩ ∈ r.served)
    (hwrite : ⟨m, ⟨.update kind copy, .error e⟩⟩ ∈ r.served)
    (hkey : Resource.key copy = Resource.key a)
    (hversion : Resource.version copy = Resource.version a) : Store.Changed r.log key n m := by
  by_contra hunchanged
  obtain ⟨hn, htold⟩ := h.told _ hread
  obtain ⟨hm, htold'⟩ := h.told _ hwrite
  have ha : (r.past n).get? key = some a := (Except.ok.inj htold.get_eq).symm
  have hakey : Resource.key a = key := (h.records.legal.sound hn).key_eq ha
  have hstored : (Store.past r.log m).get? (Resource.key copy) = some a := by
    rw [hkey, hakey, Store.get?_past_of_unchanged hnm hm hunchanged]
    exact ha
  have hreply := htold'.update_eq.1
  -- so the write carries the version that is stored, and is served
  simp only [Store.update, hstored, hversion, if_true] at hreply
  cases hreply

/-- An attempt that fails has read an object and was refused. -/
theorem refused_of_attempt {timed : List Timed} {e : StoreError}
    (htold : ∀ t ∈ timed, Told r.log t)
    (h : Access.Attempt kind key edit (timed.map Timed.exchange) (.error e)) :
    ∃ n m a copy, timed = [⟨n, ⟨.get kind key, .ok (some a)⟩⟩, ⟨m, ⟨.update kind copy, .error e⟩⟩] ∧
      edit a = (copy, true) := by
  generalize hexchanges : timed.map Timed.exchange = exchanges at h
  generalize hresult : (Except.error e : Except StoreError (Option kind.Obj)) = result at h
  cases h with
  | missing => cases hresult
  | left a copy hedit => cases hresult
  | written a copy b hedit => cases hresult
  | failed e' =>
    obtain ⟨⟨n, x⟩, rfl, rfl⟩ := List.map_eq_singleton_iff.1 hexchanges
    cases (htold ⟨n, _⟩ List.mem_cons_self).get_eq
  | refused a copy e' hedit =>
    cases hresult
    obtain ⟨⟨n, x⟩, rest, rfl, rfl, hrest⟩ := List.map_eq_cons_iff.1 hexchanges
    obtain ⟨⟨m, y⟩, rfl, rfl⟩ := List.map_eq_singleton_iff.1 hrest
    exact ⟨n, m, a, copy, rfl, hedit⟩

/-- An attempt that fails has lost to a change about the key. -/
theorem Faithful.contended_attempt (h : r.Faithful call) (hminds : Clientele.Minds edit)
    {timed : List Timed} (hserved : ∀ t ∈ timed, t ∈ r.served)
    (hsorted : timed.Pairwise fun s t => s.moment ≤ t.moment) {e : StoreError}
    (hattempt : Access.Attempt kind key edit (timed.map Timed.exchange) (.error e)) :
    ∃ s t, timed = [s, t] ∧ Store.Changed r.log key s.moment t.moment ∧
      ∀ t ∈ timed, ¬Wrote kind t := by
  obtain ⟨n, m, a, copy, rfl, hedit⟩ :=
    refused_of_attempt (fun t ht => (h.told t (hserved t ht)).2) hattempt
  obtain ⟨hkey, hversion⟩ := hminds a copy hedit
  have hnm : n ≤ m := (List.pairwise_cons.1 hsorted).1 _ List.mem_cons_self
  have hread := hserved _ List.mem_cons_self
  have hwrite := hserved _ (List.mem_cons_of_mem _ List.mem_cons_self)
  refine ⟨_, _, rfl, h.changed_of_refused hnm hread hwrite hkey hversion, ?_⟩
  rintro t ht ⟨a', b, hb⟩
  rcases List.mem_cons.1 ht with rfl | ht
  · cases hb
  · obtain rfl := List.mem_singleton.1 ht
    cases hb

theorem Faithful.moment_between (h : r.Faithful call) {first last t : Timed}
    (hfirst : r.served.head? = some first) (hlast : r.served.getLast? = some last)
    (ht : t ∈ r.served) : first.moment ≤ t.moment ∧ t.moment ≤ last.moment := by
  have hsorted := h.sorted
  constructor
  · obtain ⟨rest, hrest⟩ := List.head?_eq_some_iff.1 hfirst
    rw [hrest] at hsorted ht
    rcases List.mem_cons.1 ht with rfl | ht
    · exact le_rfl
    · exact (List.pairwise_cons.1 hsorted).1 t ht
  · obtain ⟨rest, hrest⟩ := List.getLast?_eq_some_iff.1 hlast
    rw [hrest] at hsorted ht
    rcases List.mem_append.1 ht with ht | ht
    · exact (List.pairwise_append.1 hsorted).2.2 t ht last List.mem_cons_self
    · rw [List.mem_singleton.1 ht]

theorem not_wrote_of_pause {failures : Nat} {pauses : List Timed}
    (h : (Program.ask (.pause failures)).Leads (pauses.map Timed.exchange) (.done ()))
    {t : Timed} (ht : t ∈ pauses) : ¬Wrote kind t := by
  rintro ⟨a, b, hwrote⟩
  have hmem := List.mem_map_of_mem (f := Timed.exchange) ht
  generalize pauses.map Timed.exchange = exchanges at h hmem
  cases h with
  | cons hdone =>
    cases hdone
    rw [List.mem_singleton.1 hmem] at hwrote
    cases hwrote

/-- The induction is on the attempts that are left. What is served to each of them comes before what
is served to the next, so they have lost to different changes. -/
theorem Faithful.contended (h : r.Faithful call) (hminds : Clientele.Minds edit) (more failures : Nat)
    {timed : List Timed} (hserved : ∀ t ∈ timed, t ∈ r.served)
    (hsorted : timed.Pairwise fun s t => s.moment ≤ t.moment) {e : StoreError}
    (hconflict : e.isConflict = true)
    (hleads : (Retry.attempt (m := Program) Access.isConflict (fun failures => .ask (.pause failures))
      (Access.editOnce kind key edit) more failures).Leads (timed.map Timed.exchange)
        (.done (.error e))) {first last : Nat}
    (hmoments : ∀ t ∈ timed, first ≤ t.moment ∧ t.moment ≤ last) (hlast : last ≤ r.log.length) :
    more + 1 ≤ Store.changesOf r.log key first last ∧ ∀ t ∈ timed, ¬Wrote kind t := by
  induction more generalizing failures timed first with
  | zero =>
    obtain ⟨s, t, rfl, hchanged, hnot⟩ :=
      h.contended_attempt hminds hserved hsorted (Access.editOnce_leads hleads)
    have hmono := Store.changesOf_mono (k := key) (hmoments s (by simp)).1
      ((List.pairwise_cons.1 hsorted).1 t List.mem_cons_self) (hmoments t (by simp)).2 hlast
    have hpos := Store.changesOf_pos hchanged
    exact ⟨by omega, hnot⟩
  | succ more ih =>
    obtain ⟨before, after, outcome, hsplit, hfirst, hrest⟩ := hleads.exists_split
    by_cases hagain : Access.isConflict outcome = true
    · rw [if_pos hagain] at hrest
      obtain ⟨pause, rest, answer, rfl, hpause, hretry⟩ := hrest.exists_split
      obtain ⟨attempt, others, rfl, rfl, hothers⟩ := List.map_eq_append_iff.1 hsplit
      obtain ⟨pauses, later, rfl, rfl, rfl⟩ := List.map_eq_append_iff.1 hothers
      obtain ⟨hsorted', hsorted'', hbefore⟩ := List.pairwise_append.1 hsorted
      rcases outcome with e' | result
      · obtain ⟨s, t, rfl, hchanged, hnot⟩ := h.contended_attempt hminds
          (fun u hu => hserved u (by simp [hu])) hsorted' (Access.editOnce_leads hfirst)
        -- the attempts after this one begin when its write was refused
        have hmoments' (u : Timed) (hu : u ∈ later) : t.moment ≤ u.moment ∧ u.moment ≤ last :=
          ⟨hbefore t (by simp) u (by simp [hu]), (hmoments u (by simp [hu])).2⟩
        have hserved' (u : Timed) (hu : u ∈ later) : u ∈ r.served := hserved u (by simp [hu])
        obtain ⟨hmore, hnot'⟩ :=
          ih (failures + 1) hserved' (List.pairwise_append.1 hsorted'').2.1 hretry hmoments'
        obtain ⟨hfirst_le, -⟩ := hmoments s (by simp)
        obtain ⟨ht, ht'⟩ := hmoments t (by simp)
        have hst := (List.pairwise_cons.1 hsorted').1 t List.mem_cons_self
        have hadd := Store.changesOf_add (k := key) ht ht' hlast
        have hmono := Store.changesOf_mono (k := key) hfirst_le hst le_rfl (ht'.trans hlast)
        have hpos := Store.changesOf_pos hchanged
        refine ⟨by omega, fun u hu => ?_⟩
        rcases List.mem_append.1 hu with hu | hu
        · exact hnot u hu
        · rcases List.mem_append.1 hu with hu | hu
          · exact not_wrote_of_pause hpause hu
          · exact hnot' u hu
      · cases hagain
    · rw [if_neg hagain] at hrest
      cases hrest
      exact absurd hconflict hagain

end Race

/-! ## Every call -/

/-- Under a policy an operation is called until its outcome is no conflict, or as often as there are
attempts, with one pause between two calls, and what its last call has come to is what comes of it.
So however a call of `Access.edit` falls among the writes of others, it returns a conflict only if
between its first and its last answer there were as many changes about the key as it has attempts,
none of which it has made. -/
theorem Retry.contended_of_run (retry : Retry) :
    (∀ {α : Type} (conflict : α → Bool) (outcomes : Nat → α) (noise : Nat → Rat),
      ∃ n, n < max retry.attempts 1 ∧ (∀ i < n, conflict (outcomes i) = true) ∧
        (conflict (outcomes n) = true → n + 1 = max retry.attempts 1) ∧
        (retry.run conflict (pausing retry.backoff noise) (scripted outcomes)).run [] =
          (outcomes n, rounds retry.backoff noise outcomes n ++ [.called (outcomes n)])) ∧
    ∀ {kind : Kind} (key : Key) {edit : kind.Obj → kind.Obj × Bool},
      Clientele.Minds edit →
      ∀ {r : Race kind}, Race.Run (.start (Access.edit retry kind key edit).run) r →
        ∀ {e : StoreError}, r.left = .done (.error e) → e.isConflict = true →
          ∃ first last, r.served.head? = some first ∧ r.served.getLast? = some last ∧
            max retry.attempts 1 ≤ Store.changesOf r.log key first.moment last.moment ∧
            ∀ t ∈ r.served, ¬Race.Wrote kind t := by
  have hattempts : retry.attempts - 1 + 1 = max retry.attempts 1 := by omega
  refine ⟨fun conflict outcomes noise => ?_, ?_⟩
  · obtain ⟨n, -, hn, hconflicts, hlast, hrun⟩ :=
      attempt_journal retry.backoff noise outcomes conflict (retry.attempts - 1) 0
    refine ⟨n, by omega, fun i hi => hconflicts i (Nat.zero_le i) hi, fun h => ?_, hrun⟩
    have := hlast h
    omega
  · intro kind key edit hminds r hrun e hdone hconflict
    have hfaithful := (Race.faithful_start _).run hrun
    have hleads := hfaithful.leads
    rw [hdone] at hleads
    have hserved : r.served ≠ [] := by
      obtain ⟨-, -, -, -, hconflicts⟩ := Access.edit_leads hleads
      intro hnil
      have hcount := hconflicts hconflict
      rw [hnil, List.map_nil, List.countP_nil] at hcount
      omega
    obtain ⟨first, hfirst⟩ := Option.isSome_iff_exists.1 (List.isSome_head?.2 hserved)
    obtain ⟨last, hlast⟩ := Option.isSome_iff_exists.1 (List.getLast?_isSome.2 hserved)
    obtain ⟨hcount, hnot⟩ := hfaithful.contended hminds (retry.attempts - 1) 0 (fun t ht => ht)
      hfaithful.sorted hconflict hleads (fun t => hfaithful.moment_between hfirst hlast)
      (hfaithful.told last (List.mem_of_getLast? hlast)).1
    exact ⟨first, last, hfirst, hlast, by omega, hnot⟩

namespace Race

/-- Someone else writes before the first write of the call, and someone deletes the instance and makes
it anew before the second. -/
theorem contended_recreated : ∃ r : Race .gameServer, Run recovering r ∧
    (∃ e, r.left = .done (.error e) ∧ e.isConflict = true) ∧
    ∃ first last, r.served.head? = some first ∧ r.served.getLast? = some last ∧
      2 ≤ Store.changesOf r.log ⟨"", "arena"⟩ first.moment last.moment := by
  have hread := run_created.tail (.serveGet _ _ _ rfl)
  have hlost := (hread.tail (.update _
    (Resource.mapMeta (fun m => { m with version := 1 }) Clientele.arena))).tail
    (.serveUpdate _ _ _ rfl)
  have hagain := (hlost.tail (.pause _ _ _ rfl)).tail (.serveGet _ _ _ rfl)
  have hrecreated := (hagain.tail (.delete _ ⟨"", "arena"⟩)).tail
    (.create _ ⟨⟨8⟩, ⟨0, 0⟩⟩ Clientele.arena)
  have hrefused := hrecreated.tail (.serveUpdate _ _ _ rfl)
  obtain ⟨r, e, hrun, hdone, hconflict⟩ : ∃ (r : Race .gameServer) (e : StoreError),
      Run recovering r ∧ r.left = .done (.error e) ∧ e.isConflict = true :=
    ⟨_, _, hrefused, rfl, rfl⟩
  obtain ⟨first, last, hfirst, hlast, hcount, -⟩ := (Retry.contended_of_run ⟨2, .fixed 5 100⟩).2
    ⟨"", "arena"⟩ (Clientele.minds_report _) hrun hdone hconflict
  exact ⟨r, hrun, ⟨e, hdone, hconflict⟩, first, last, hfirst, hlast, hcount⟩

end Race

end GameFleet
