import GameFleet.Proofs.Pass.Attempts
import GameFleet.Proofs.Store.Serial

/-!
# Objects that vanish during a call

In a `Race` a store serves one call of `Access.edit`, and whoever else writes to it does so at any
moment of the call. What the call is answered is kept, with the moment of each answer : the number of
changes that the store had made before.

If what the call has read is not gone when it writes, the call ends well (`Race.Settles`) : it has found
no object, it has stored one or left it as it is, or each of its attempts has lost to another write
(`Race.settled_of_run`). Otherwise the object was deleted after the read
(`Race.Faithful.deleted_of_vanishes`), and the call may fail for that (`Race.vanished_missed`).
-/

open Relation

namespace GameFleet

open Clientele (reply)

variable {kind : Kind}

/-- What is there and is not there later was deleted in between. -/
theorem Store.exists_deleted {α : Type} [Resource α] {log : List (Change α)} {k : Key} {n m : Nat}
    (hnm : n ≤ m) (hm : m ≤ log.length) {a : α} (hn : (past log n).get? k = some a)
    (habsent : (past log m).get? k = none) :
    ∃ i b, n ≤ i ∧ i < m ∧ log[i]? = some (.deleted b) ∧ Resource.key b = k := by
  induction m, hnm using Nat.le_induction with
  | base =>
    rw [hn] at habsent
    cases habsent
  | succ m hnm ih =>
    have hget := List.getElem?_eq_getElem (by omega : m < log.length)
    rw [past_succ hget, get?_commit] at habsent
    split at habsent
    · next hkey =>
      generalize log[m] = c at hget hkey habsent
      cases c with
      | added b => cases habsent
      | updated old new => cases habsent
      | deleted b => exact ⟨m, b, hnm, Nat.lt_succ_self m, hget, hkey⟩
    · obtain ⟨i, b, hni, him, hb, hkey⟩ := ih (by omega) habsent
      exact ⟨i, b, hni, by omega, hb, hkey⟩

/-- An update of what is there is refused for its version only. -/
theorem Store.isConflict_of_update {α : Type} [Resource α] {s : Store α} {a old : α} {e : StoreError}
    (hold : s.get? (Resource.key a) = some old) (h : s.update a = .error e) :
    e.isConflict = true := by
  simp only [update, hold] at h
  split at h
  · cases h
  · cases h
    rfl

/-! ## Races -/

/-- An exchange, and how many changes the store had made before it. -/
structure Timed where
  moment : Nat
  exchange : Exchange

structure Race (kind : Kind) where
  store : Store kind.Obj
  /-- The changes so far, whoever has made them. -/
  log : List (Change kind.Obj)
  /-- What the call has asked for. -/
  served : List Timed
  /-- What the call still has to do. -/
  left : Program (Except StoreError (Option kind.Obj))

namespace Race

/-- An empty store, and a call that was not served yet. -/
def start (call : Program (Except StoreError (Option kind.Obj))) : Race kind := ⟨.empty, [], [], call⟩

/-- The store after the first `n` changes. -/
def past (r : Race kind) (n : Nat) : Store kind.Obj := Store.past r.log n

/-- The store was called for a write, which may have failed. -/
def wrote (r : Race kind) : Except StoreError (Change kind.Obj × Store kind.Obj) → Race kind
  | .ok (c, store) => { r with store, log := r.log ++ [c] }
  | .error _ => r

section

variable (r : Race kind) (outcome : Except StoreError (Change kind.Obj × Store kind.Obj))

@[simp] theorem left_wrote : (r.wrote outcome).left = r.left := by cases outcome <;> rfl

@[simp] theorem served_wrote : (r.wrote outcome).served = r.served := by cases outcome <;> rfl

theorem length_le_wrote : r.log.length ≤ (r.wrote outcome).log.length := by
  cases outcome <;> simp [wrote]

theorem past_wrote :
    Store.past (r.wrote outcome).log r.log.length = Store.past r.log r.log.length := by
  cases outcome with
  | error e => rfl
  | ok written => exact Store.past_append _ le_rfl

end

/-- The call was answered. -/
def answered (r : Race kind) (moment : Nat) (x : Exchange)
    (left : Program (Except StoreError (Option kind.Obj))) : Race kind :=
  { r with served := r.served ++ [⟨moment, x⟩], left }

/-- Others write whatever they want, and the store serves what the call asks for next. -/
inductive Step : Race kind → Race kind → Prop where
  | create (r : Race kind) (birth : Birth) (a : kind.Obj) :
    Step r (r.wrote (r.store.create birth a))
  | update (r : Race kind) (a : kind.Obj) : Step r (r.wrote (r.store.update a))
  | delete (r : Race kind) (k : Key) : Step r (r.wrote (r.store.delete k))
  | serveGet (r : Race kind) (k : Key)
    (next : Except StoreError (Option kind.Obj) → Program (Except StoreError (Option kind.Obj)))
    (h : r.left = .call (.get kind k) next) :
    Step r (r.answered r.log.length ⟨.get kind k, .ok (r.store.get? k)⟩
      (next (.ok (r.store.get? k))))
  | serveUpdate (r : Race kind) (a : kind.Obj)
    (next : Except StoreError kind.Obj → Program (Except StoreError (Option kind.Obj)))
    (h : r.left = .call (.update kind a) next) :
    Step r ((r.wrote (r.store.update a)).answered r.log.length
      ⟨.update kind a, reply (r.store.update a)⟩ (next (reply (r.store.update a))))
  | pause (r : Race kind) (failures : Nat)
    (next : Unit → Program (Except StoreError (Option kind.Obj)))
    (h : r.left = .call (.pause failures) next) :
    Step r (r.answered r.log.length ⟨.pause failures, ()⟩ (next ()))

/-- Any number of steps. -/
abbrev Run : Race kind → Race kind → Prop := ReflTransGen Step

/-! ## What the call was told -/

/-- The call was told what the store has done at that moment. -/
inductive Told (log : List (Change kind.Obj)) : Timed → Prop where
  | get (n : Nat) (k : Key) : Told log ⟨n, ⟨.get kind k, .ok ((Store.past log n).get? k)⟩⟩
  | update (n : Nat) (a : kind.Obj)
    (h : ∀ c s, (Store.past log n).update a = .ok (c, s) → log[n]? = some c) :
    Told log ⟨n, ⟨.update kind a, reply ((Store.past log n).update a)⟩⟩
  | pause (n failures : Nat) : Told log ⟨n, ⟨.pause failures, ()⟩⟩

theorem Told.append {log more : List (Change kind.Obj)} {t : Timed} (h : Told log t)
    (ht : t.moment ≤ log.length) : Told (log ++ more) t := by
  cases h with
  | get n k =>
    rw [← Store.past_append more ht]
    exact .get n k
  | update n a h =>
    rw [← Store.past_append more ht]
    refine .update n a fun c s hw => ?_
    rw [Store.past_append more ht] at hw
    have hc := h c s hw
    rwa [List.getElem?_append_left (List.getElem?_eq_some_iff.1 hc).1]
  | pause n failures => exact .pause n failures

/-- The call has been told the truth, in the order of the moments. -/
structure Faithful (call : Program (Except StoreError (Option kind.Obj))) (r : Race kind) :
    Prop where
  records : Store.Records r.log r.store
  leads : call.Leads (r.served.map Timed.exchange) r.left
  told : ∀ t ∈ r.served, t.moment ≤ r.log.length ∧ Told r.log t
  sorted : r.served.Pairwise fun s t => s.moment ≤ t.moment

namespace Faithful

variable {call : Program (Except StoreError (Option kind.Obj))} {r r' : Race kind}

theorem past_length (h : r.Faithful call) : Store.past r.log r.log.length = r.store :=
  h.records.past_eq

theorem wrote (h : r.Faithful call)
    {outcome : Except StoreError (Change kind.Obj × Store kind.Obj)}
    (hw : ∀ c s, outcome = .ok (c, s) → Store.Records (r.log ++ [c]) s) :
    (r.wrote outcome).Faithful call := by
  rcases outcome with e | ⟨c, s⟩
  · exact h
  · refine ⟨hw c s rfl, h.leads, fun t ht => ?_, h.sorted⟩
    obtain ⟨hmoment, htold⟩ := h.told t ht
    refine ⟨?_, htold.append hmoment⟩
    simp only [Race.wrote, List.length_append, List.length_singleton]
    omega

theorem answered (h : r.Faithful call) {request : Request}
    {next : request.Answer → Program (Except StoreError (Option kind.Obj))}
    {answer : request.Answer} {n : Nat} (hleft : r.left = .call request next)
    (hn : n ≤ r.log.length) (hlate : ∀ t ∈ r.served, t.moment ≤ n)
    (htold : Told r.log ⟨n, ⟨request, answer⟩⟩) :
    (r.answered n ⟨request, answer⟩ (next answer)).Faithful call := by
  refine ⟨h.records, ?_, fun t ht => ?_, ?_⟩
  · have hleads := h.leads
    rw [hleft] at hleads
    simpa [Race.answered] using hleads.concat answer
  · rcases List.mem_append.1 ht with ht | ht
    · exact h.told t ht
    · obtain rfl := List.mem_singleton.1 ht
      exact ⟨hn, htold⟩
  · refine List.pairwise_append.2 ⟨h.sorted, List.pairwise_singleton _ _, fun t ht s hs => ?_⟩
    obtain rfl := List.mem_singleton.1 hs
    exact hlate t ht

/-- An update is told of by the log that it has grown. -/
theorem told_update (h : r.Faithful call) (a : kind.Obj) :
    Told (r.wrote (r.store.update a)).log
      ⟨r.log.length, ⟨.update kind a, reply (r.store.update a)⟩⟩ := by
  have hpast : Store.past (r.wrote (r.store.update a)).log r.log.length = r.store := by
    rw [past_wrote, h.past_length]
  have htold : Told (r.wrote (r.store.update a)).log ⟨r.log.length, ⟨.update kind a,
      reply ((Store.past (r.wrote (r.store.update a)).log r.log.length).update a)⟩⟩ := by
    refine .update _ a fun c s hw => ?_
    rw [hpast] at hw
    simp [hw, Race.wrote]
  rwa [hpast] at htold

theorem serveUpdate (h : r.Faithful call) {a : kind.Obj}
    {next : Except StoreError kind.Obj → Program (Except StoreError (Option kind.Obj))}
    (hleft : r.left = .call (.update kind a) next) :
    ((r.wrote (r.store.update a)).answered r.log.length
      ⟨.update kind a, reply (r.store.update a)⟩ (next (reply (r.store.update a)))).Faithful
        call := by
  have hwrote : (r.wrote (r.store.update a)).Faithful call :=
    h.wrote fun c s hw => h.records.update hw
  have hleft' : (r.wrote (r.store.update a)).left = .call (.update kind a) next := by
    rw [left_wrote, hleft]
  refine hwrote.answered hleft' (length_le_wrote _ _) (fun t ht => ?_) (h.told_update a)
  rw [served_wrote] at ht
  exact (h.told t ht).1

theorem step (h : r.Faithful call) (hstep : Step r r') : r'.Faithful call := by
  have hlate (t : Timed) (ht : t ∈ r.served) : t.moment ≤ r.log.length := (h.told t ht).1
  cases hstep with
  | create birth a => exact h.wrote fun c s hw => h.records.create hw
  | update a => exact h.wrote fun c s hw => h.records.update hw
  | delete k => exact h.wrote fun c s hw => h.records.delete hw
  | serveGet k next hleft =>
    refine h.answered hleft le_rfl hlate ?_
    rw [← h.past_length]
    exact .get _ k
  | serveUpdate a next hleft => exact h.serveUpdate hleft
  | pause failures next hleft => exact h.answered hleft le_rfl hlate (.pause _ failures)

theorem run (h : r.Faithful call) (hrun : Run r r') : r'.Faithful call := by
  induction hrun with
  | refl => exact h
  | tail _ hstep ih => exact ih.step hstep

end Faithful

theorem faithful_start (call : Program (Except StoreError (Option kind.Obj))) :
    (start call).Faithful call where
  records := Store.records_empty
  leads := Program.Leads.nil call
  told t ht := by cases ht
  sorted := List.Pairwise.nil

theorem Told.get_eq {log : List (Change kind.Obj)} {n : Nat} {k : Key}
    {answer : Except StoreError (Option kind.Obj)} (h : Told log ⟨n, ⟨.get kind k, answer⟩⟩) :
    answer = .ok ((Store.past log n).get? k) := by
  cases h with
  | get n k => rfl

theorem Told.update_eq {log : List (Change kind.Obj)} {n : Nat} {a : kind.Obj}
    {answer : Except StoreError kind.Obj} (h : Told log ⟨n, ⟨.update kind a, answer⟩⟩) :
    answer = reply ((Store.past log n).update a) ∧
      ∀ c s, (Store.past log n).update a = .ok (c, s) → log[n]? = some c := by
  cases h with
  | update n a h => exact ⟨rfl, h⟩

/-! ## What a call comes to -/

/-- What the call has read is gone when it writes. -/
def Vanishes (r : Race kind) (key : Key) : Prop :=
  ∃ before after n m a copy answer, r.served = before ++ ⟨n, ⟨.get kind key, .ok (some a)⟩⟩ ::
    ⟨m, ⟨.update kind copy, answer⟩⟩ :: after ∧ (r.past m).get? key = none

/-- The call has found nothing under the key. -/
def Misses (r : Race kind) (key : Key) : Prop :=
  ∃ n, ⟨n, ⟨.get kind key, .ok none⟩⟩ ∈ r.served ∧ (r.past n).get? key = none

/-- The call has read an object that `edit` had nothing to write of, and gives `b` for it. -/
def Leaves (r : Race kind) (key : Key) (edit : kind.Obj → kind.Obj × Bool) (b : kind.Obj) : Prop :=
  ∃ n a, ⟨n, ⟨.get kind key, .ok (some a)⟩⟩ ∈ r.served ∧ (r.past n).get? key = some a ∧
    edit a = (b, false)

/-- The call has stored `b`, which is what `edit` has made of an object that it had read. -/
def Stores (r : Race kind) (key : Key) (edit : kind.Obj → kind.Obj × Bool) (b : kind.Obj) : Prop :=
  ∃ n m a copy old, n ≤ m ∧ ⟨n, ⟨.get kind key, .ok (some a)⟩⟩ ∈ r.served ∧
    ⟨m, ⟨.update kind copy, .ok b⟩⟩ ∈ r.served ∧ (r.past n).get? key = some a ∧
    edit a = (copy, true) ∧ (r.past m).get? key = some old ∧ b = (r.past m).successor old copy ∧
    r.log[m]? = some (.updated old b)

/-- What a call may return : that there is no object, the object that it has stored or left as it is,
or a conflict after as many as it has attempts. -/
def Settles (r : Race kind) (retry : Retry) (key : Key) (edit : kind.Obj → kind.Obj × Bool) :
    Except StoreError (Option kind.Obj) → Prop
  | .ok none => r.Misses key
  | .ok (some b) => r.Stores key edit b ∨ r.Leaves key edit b
  | .error e => e.isConflict = true ∧
    (r.served.map Timed.exchange).countP Exchange.isConflict = max retry.attempts 1

namespace Faithful

variable {retry : Retry} {key : Key} {edit : kind.Obj → kind.Obj × Bool} {r : Race kind}
  {call : Program (Except StoreError (Option kind.Obj))} {n m : Nat} {a copy : kind.Obj}

/-- A call has read what was there, and writes after that. -/
theorem read_before_write (h : r.Faithful call) {before after : List Timed}
    {answer : Except StoreError kind.Obj}
    (hserved : r.served = before ++ ⟨n, ⟨.get kind key, .ok (some a)⟩⟩ ::
      ⟨m, ⟨.update kind copy, answer⟩⟩ :: after) :
    n ≤ m ∧ m ≤ r.log.length ∧ (r.past n).get? key = some a ∧ Resource.key a = key := by
  obtain ⟨hn, hread⟩ := h.told ⟨n, ⟨.get kind key, .ok (some a)⟩⟩ (by simp [hserved])
  obtain ⟨hm, -⟩ := h.told ⟨m, ⟨.update kind copy, answer⟩⟩ (by simp [hserved])
  have hsorted := h.sorted
  rw [hserved, List.pairwise_append, List.pairwise_cons] at hsorted
  have ha : (r.past n).get? key = some a := (Except.ok.inj hread.get_eq).symm
  exact ⟨hsorted.2.1.1 _ List.mem_cons_self, hm, ha, (h.records.legal.sound hn).key_eq ha⟩

/-- What is gone when the call writes was deleted after the call has read it. -/
theorem deleted_of_vanishes (h : r.Faithful call) (hgone : r.Vanishes key) :
    ∃ n m i a b, ⟨n, ⟨.get kind key, .ok (some a)⟩⟩ ∈ r.served ∧ n ≤ i ∧ i < m ∧
      m ≤ r.log.length ∧ (r.past m).get? key = none ∧ r.log[i]? = some (.deleted b) ∧
      Resource.key b = key := by
  obtain ⟨before, after, n, m, a, copy, answer, hserved, hnone⟩ := hgone
  obtain ⟨hnm, hm, ha, -⟩ := h.read_before_write hserved
  obtain ⟨i, b, hni, him, hb, hkey⟩ := Store.exists_deleted hnm hm ha hnone
  exact ⟨n, m, i, a, b, by simp [hserved], hni, him, hm, hnone, hb, hkey⟩

/-- What a call returns is told by its last attempt. -/
theorem settles (h : r.Faithful (Access.edit retry kind key edit).run)
    (hkeeps : ∀ a copy, edit a = (copy, true) → Resource.key copy = Resource.key a)
    {result : Except StoreError (Option kind.Obj)} (hdone : r.left = .done result)
    (hstays : ¬r.Vanishes key) : r.Settles retry key edit result := by
  have hleads := h.leads
  rw [hdone] at hleads
  obtain ⟨earlier, last, hexchanges, hlast, hconflicts⟩ := Access.edit_leads hleads
  obtain ⟨before, attempt, hserved, -, hattempt⟩ := List.map_eq_append_iff.1 hexchanges
  cases hlast with
  | missing =>
    obtain ⟨⟨n, x⟩, rfl, rfl⟩ := List.map_eq_singleton_iff.1 hattempt
    have hread : ⟨n, ⟨.get kind key, .ok none⟩⟩ ∈ r.served := by simp [hserved]
    exact ⟨n, hread, (Except.ok.inj (h.told _ hread).2.get_eq).symm⟩
  | failed e =>
    obtain ⟨⟨n, x⟩, rfl, rfl⟩ := List.map_eq_singleton_iff.1 hattempt
    have hread : ⟨n, ⟨.get kind key, .error e⟩⟩ ∈ r.served := by simp [hserved]
    cases (h.told _ hread).2.get_eq
  | left a copy hedit =>
    obtain ⟨⟨n, x⟩, rfl, rfl⟩ := List.map_eq_singleton_iff.1 hattempt
    have hread : ⟨n, ⟨.get kind key, .ok (some a)⟩⟩ ∈ r.served := by simp [hserved]
    exact .inr ⟨n, a, hread, (Except.ok.inj (h.told _ hread).2.get_eq).symm, hedit⟩
  | written a copy b hedit =>
    obtain ⟨⟨n, x⟩, rest, rfl, rfl, hrest⟩ := List.map_eq_cons_iff.1 hattempt
    obtain ⟨⟨m, y⟩, rfl, rfl⟩ := List.map_eq_singleton_iff.1 hrest
    obtain ⟨hnm, -, ha, hkey⟩ := h.read_before_write hserved
    have hread : ⟨n, ⟨.get kind key, .ok (some a)⟩⟩ ∈ r.served := by simp [hserved]
    have hwrite : ⟨m, ⟨.update kind copy, .ok b⟩⟩ ∈ r.served := by simp [hserved]
    obtain ⟨hreply, hchange⟩ := (h.told _ hwrite).2.update_eq
    cases hw : (Store.past r.log m).update copy with
    | error e =>
      rw [hw] at hreply
      cases hreply
    | ok written =>
      obtain ⟨c, s⟩ := written
      obtain ⟨old, hold, -, rfl, -⟩ := Store.update_eq_ok hw
      rw [(hkeeps a copy hedit).trans hkey] at hold
      rw [hw] at hreply
      cases hreply
      exact .inl ⟨n, m, a, copy, old, hnm, hread, hwrite, ha, hedit, hold, rfl, hchange _ _ hw⟩
  | refused a copy e hedit =>
    obtain ⟨⟨n, x⟩, rest, rfl, rfl, hrest⟩ := List.map_eq_cons_iff.1 hattempt
    obtain ⟨⟨m, y⟩, rfl, rfl⟩ := List.map_eq_singleton_iff.1 hrest
    obtain ⟨-, -, -, hkey⟩ := h.read_before_write hserved
    have hthere : (r.past m).get? key ≠ none := fun hnone =>
      hstays ⟨before, [], n, m, a, copy, _, hserved, hnone⟩
    obtain ⟨old, hold⟩ := Option.ne_none_iff_exists'.1 hthere
    rw [← (hkeeps a copy hedit).trans hkey] at hold
    have hwrite : ⟨m, ⟨.update kind copy, .error e⟩⟩ ∈ r.served := by simp [hserved]
    obtain ⟨hreply, -⟩ := (h.told _ hwrite).2.update_eq
    cases hw : (Store.past r.log m).update copy with
    | ok written =>
      rw [hw] at hreply
      cases hreply
    | error e' =>
      rw [hw] at hreply
      cases hreply
      have hconflict := Store.isConflict_of_update hold hw
      exact ⟨hconflict, hconflicts hconflict⟩

end Faithful

/-- A call that is not done can be served. -/
theorem exists_step {r : Race kind} {n : Nat} (h : r.left.Asks (Access.Needs kind) n) :
    (∃ result, r.left = .done result) ∨
      ∃ next, Step r next ∧ next.served.length = r.served.length + 1 := by
  cases hleft : r.left with
  | done result => exact .inl ⟨result, rfl⟩
  | call request next =>
    rw [hleft] at h
    obtain _ | n := n
    · exact h.elim
    · refine .inr ?_
      obtain ⟨hneeds, -⟩ := h
      cases hneeds with
      | get k => exact ⟨_, .serveGet r k next hleft, by simp [answered]⟩
      | update a => exact ⟨_, .serveUpdate r a next hleft, by simp [answered]⟩
      | pause failures => exact ⟨_, .pause r failures next hleft, by simp [answered]⟩

/-- However a call of `Access.edit` falls among the writes of others, it is done after a limited number
of answers, and can go on until then. If what it has read is not gone when it writes, it ends well. -/
theorem settled_of_run (retry : Retry) (key : Key) {edit : kind.Obj → kind.Obj × Bool}
    (hkeeps : ∀ a copy, edit a = (copy, true) → Resource.key copy = Resource.key a) {r : Race kind}
    (hrun : Run (start (Access.edit retry kind key edit).run) r) :
    r.served.length < 3 * max retry.attempts 1 ∧
    ((∃ result, r.left = .done result) ∨
      ∃ next, Step r next ∧ next.served.length = r.served.length + 1) ∧
    ∀ result, r.left = .done result → ¬r.Vanishes key → r.Settles retry key edit result := by
  have hfaithful := (faithful_start _).run hrun
  obtain ⟨hlength, hasks⟩ := hfaithful.leads.asks (Access.asks_edit retry)
  rw [List.length_map] at hlength
  exact ⟨by omega, exists_step hasks, fun result hdone hstays =>
    hfaithful.settles hkeeps hdone hstays⟩

/-- An empty store, and a report that an instance is healthy, with two attempts. -/
def recovering : Race .gameServer :=
  start (Access.edit ⟨2, .fixed 5 100⟩ .gameServer ⟨"", "arena"⟩
    (Report.edit Clientele.markHealthy)).run

theorem run_created : Run recovering
    (recovering.wrote (recovering.store.create ⟨⟨7⟩, ⟨0, 0⟩⟩ Clientele.arena)) :=
  ReflTransGen.single (Step.create recovering ⟨⟨7⟩, ⟨0, 0⟩⟩ Clientele.arena)

/-- Someone else writes first, and deletes the instance before the next attempt. The call finds that
there is none. -/
theorem settled_gone : ∃ r : Race .gameServer, Run recovering r ∧ r.left = .done (.ok none) ∧
    ¬r.Vanishes ⟨"", "arena"⟩ ∧ r.Misses ⟨"", "arena"⟩ := by
  have hread := run_created.tail (.serveGet _ _ _ rfl)
  have hlost := (hread.tail (.update _
    (Resource.mapMeta (fun m => { m with version := 1 }) Clientele.arena))).tail
    (.serveUpdate _ _ _ rfl)
  have hgone := ((hlost.tail (.pause _ _ _ rfl)).tail (.delete _ ⟨"", "arena"⟩)).tail
    (.serveGet _ _ _ rfl)
  obtain ⟨r, x, y, z, stored, hrun, hdone, hserved, hstored⟩ : ∃ (r : Race .gameServer)
      (x y z : Exchange) (stored : GameServer), Run recovering r ∧ r.left = .done (.ok none) ∧
      r.served = [⟨1, x⟩, ⟨2, y⟩, ⟨2, ⟨.pause 0, ()⟩⟩, ⟨3, z⟩] ∧
      (r.past 2).get? ⟨"", "arena"⟩ = some stored := ⟨_, _, _, _, _, hgone, rfl, rfl, rfl⟩
  have hstays : ¬r.Vanishes ⟨"", "arena"⟩ := by
    rintro ⟨before, after, n, m, a, copy, answer, hsplit, hnone⟩
    rw [hserved] at hsplit
    rcases before with _ | ⟨_, _ | ⟨_, _ | ⟨_, before⟩⟩⟩
    · simp only [List.nil_append, List.cons.injEq, Timed.mk.injEq] at hsplit
      obtain ⟨-, ⟨rfl, -⟩, -⟩ := hsplit
      rw [hstored] at hnone
      cases hnone
    · simp at hsplit
    · simp at hsplit
    · have hlength := congrArg List.length hsplit
      simp only [List.cons_append, List.length_cons, List.length_append, List.length_nil] at hlength
      omega
  refine ⟨r, hrun, hdone, hstays, ?_⟩
  exact (settled_of_run _ _ (fun a copy h => (Clientele.minds_report _ a copy h).1) hrun).2.2 _ hdone
    hstays

/-- The instance is deleted between the read and the write, and the call fails. -/
theorem vanished_missed : ∃ r : Race .gameServer, Run recovering r ∧
    r.left = .done (.error (.notFound (Resource.kind GameServer) (Key.toText ⟨"", "arena"⟩))) := by
  have hread := run_created.tail (.serveGet _ _ _ rfl)
  have hfailed := (hread.tail (.delete _ ⟨"", "arena"⟩)).tail (.serveUpdate _ _ _ rfl)
  exact ⟨_, hfailed, rfl⟩

end Race

end GameFleet
