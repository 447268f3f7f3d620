import GameFleet.Plane.Shelf
import GameFleet.Proofs.Store.History
import GameFleet.Resource.Pod
import Mathlib.Data.List.Pairwise

/-!
# Replaying the log of a store

Whoever watches a store is told of each write by a `Change`. `Objects.replay` is what the
changes alone make of no objects, and `Shelf.replay_calls` says that it is what the store
holds, whatever calls clients have made of the store and whether or not they have failed.

A shelf keeps the log with the store (`Shelf.Logged`). Its changes are `Legal`, so a change
found what the changes before it have left, and the object it stored has its number in the
log as version. Further, an update keeps the origin of what it replaces, so an object has
one origin from when it is created until it is deleted (`Shelf.Logged.origin_of_lasting`).
-/

namespace GameFleet

variable {α : Type} [Resource α]

/-! ## Replay -/

namespace Objects

/-- The objects after one more change. -/
def heed (os : Objects α) : Change α → Objects α
  | .added a => os.insert (Resource.key a) a
  | .updated _ new => os.insert (Resource.key new) new
  | .deleted a => os.erase (Resource.key a)

/-- What changes make of no objects, one after the other. -/
def replay (changes : List (Change α)) : Objects α := changes.foldl heed .empty

end Objects

namespace Store

theorem objects_commit (s : Store α) (c : Change α) : (s.commit c).objects = s.objects.heed c := by
  cases c <;> rfl

theorem objects_past (log : List (Change α)) (n : Nat) :
    (past log n).objects = Objects.replay (log.take n) := by
  have hfold : ∀ (cs : List (Change α)) (s : Store α),
      (cs.foldl commit s).objects = cs.foldl Objects.heed s.objects := by
    intro cs
    induction cs with
    | nil => simp
    | cons c cs ih =>
      intro s
      simp [ih, objects_commit]
  exact hfold _ _

theorem find?_replay (log : List (Change α)) (n : Nat) (k : Key) :
    (Objects.replay (log.take n)).find? k = (past log n).get? k := by
  rw [← objects_past, get?]

end Store

/-- What the store gives to an object for as long as it is stored. -/
def Resource.origin (a : α) : Option Uid × Option Time.Instant :=
  ((Resource.metadata a).uid, (Resource.metadata a).created)

@[simp] theorem Store.origin_successor (s : Store α) (old a : α) :
    Resource.origin (s.successor old a) = Resource.origin old := by
  simp [Resource.origin, successor]

/-- An update keeps the origin of the object. -/
def Change.KeepsOrigin : Change α → Prop
  | .updated old new => Resource.origin new = Resource.origin old
  | _ => True

/-! ## Calls -/

/-- A call of a store for a write. -/
inductive StoreCall (α : Type) where
  | create (birth : Birth) (a : α)
  | update (a : α)
  | delete (k : Key)

/-- What a store makes of a call. -/
def StoreCall.write (s : Store α) : StoreCall α → Except StoreError (Change α × Store α)
  | .create birth a => s.create birth a
  | .update a => s.update a
  | .delete k => s.delete k

namespace Shelf

/-- The changes that were told to those who watch, the oldest first. -/
def log (s : Shelf α) : List (Change α) := s.feed.log.toList

/-- Answers a call, and tells of the write. -/
def serve (s : Shelf α) (call : StoreCall α) : Except StoreError α × Shelf α :=
  s.commit (call.write s.store)

/-- The shelf after calls that were made one after the other. -/
def serveAll (s : Shelf α) (calls : List (StoreCall α)) : Shelf α :=
  calls.foldl (fun s call => (s.serve call).2) s

/-! ## What a call does -/

/-- The log is the log of the store, and no update in it has changed an origin. -/
structure Logged (s : Shelf α) : Prop where
  records : Store.Records s.log s.store
  origins : ∀ c ∈ s.log, c.KeepsOrigin

theorem logged_empty : (empty : Shelf α).Logged :=
  ⟨Store.records_empty, fun c hc => by simp [log, empty, Feed.new] at hc⟩

/-- A call fails and leaves the shelf as it is, or it makes one change that the store
admits, and the change is told. -/
theorem serve_cases {s : Shelf α} (h : s.store.Sound) (call : StoreCall α) :
    (∃ cause, (s.serve call).1 = .error cause ∧ (s.serve call).2 = s) ∨
    (∃ c, (s.serve call).1 = .ok c.object ∧ s.store.Admits c ∧ c.KeepsOrigin ∧
      (s.serve call).2.store = s.store.commit c ∧ (s.serve call).2.log = s.log ++ [c]) := by
  unfold serve
  cases hw : call.write s.store with
  | error cause => exact Or.inl ⟨cause, rfl, rfl⟩
  | ok written =>
    obtain ⟨c, t⟩ := written
    refine Or.inr ⟨c, rfl, ?_⟩
    have hlog : (s.commit (.ok (c, t))).2.log = s.log ++ [c] := by simp [commit, log, Feed.push]
    cases call with
    | create birth a =>
      obtain ⟨-, hc, ht⟩ := Store.create_eq_ok hw
      exact ⟨Store.admits_of_create hw, by simp [hc, Change.KeepsOrigin], ht, hlog⟩
    | update a =>
      obtain ⟨old, -, -, hc, ht⟩ := Store.update_eq_ok hw
      exact ⟨Store.admits_of_update hw, by simp [hc, Change.KeepsOrigin], ht, hlog⟩
    | delete k =>
      obtain ⟨old, -, hc, ht⟩ := Store.delete_eq_ok h hw
      exact ⟨Store.admits_of_delete h hw, by simp [hc, Change.KeepsOrigin], ht, hlog⟩

namespace Logged

variable {s : Shelf α}

theorem serve (h : s.Logged) (call : StoreCall α) : (s.serve call).2.Logged := by
  rcases serve_cases h.records.sound call with ⟨-, -, heq⟩ | ⟨c, -, hc, horigin, hstore, hlog⟩
  · rwa [heq]
  · refine ⟨?_, fun d hd => ?_⟩
    · rw [hlog, hstore]
      exact h.records.commit hc
    · rw [hlog, List.mem_append, List.mem_singleton] at hd
      rcases hd with hd | rfl
      · exact h.origins d hd
      · exact horigin

theorem serveAll (h : s.Logged) (calls : List (StoreCall α)) : (s.serveAll calls).Logged := by
  induction calls generalizing s with
  | nil => exact h
  | cons call calls ih => exact ih (h.serve call)

/-! ## What the log says -/

theorem replay_eq (h : s.Logged) : Objects.replay s.log = s.store.objects := by
  rw [← h.records.past_eq, Store.objects_past, List.take_length]

/-- A change found what the changes before it have left. -/
theorem find?_before (h : s.Logged) {n : Nat} {c : Change α} (hc : s.log[n]? = some c) :
    (Objects.replay (s.log.take n)).find? (Resource.key c.object) = c.before? := by
  rw [Store.find?_replay]
  exact (h.records.legal n c hc).before

/-- The object that a change stored has the number of the change as version. -/
theorem version_after (h : s.Logged) {n : Nat} {c : Change α} {a : α} (hc : s.log[n]? = some c)
    (ha : c.after? = some a) : Resource.version a = n + 1 := by
  have hn : n < s.log.length := (List.getElem?_eq_some_iff.1 hc).1
  rw [(h.records.legal n c hc).version a ha, Store.version_past hn.le]

/-- The versions that were written grow from each write to the next. -/
theorem versions_increase (h : s.Logged) :
    ((s.log.filterMap Change.after?).map Resource.version).Pairwise (· < ·) := by
  rw [List.pairwise_map, List.pairwise_filterMap, List.pairwise_iff_getElem]
  intro i j hi hj hij a ha b hb
  rw [h.version_after (List.getElem?_eq_getElem hi) ha,
    h.version_after (List.getElem?_eq_getElem hj) hb]
  omega

/-- A change that leaves something under a key at which it has found something leaves
something of the same origin. -/
theorem origin_of_change (h : s.Logged) {n : Nat} {c : Change α} {a b : α}
    (hc : s.log[n]? = some c) (ha : c.before? = some a) (hb : c.after? = some b) :
    Resource.origin b = Resource.origin a := by
  have horigin := h.origins c (List.mem_of_getElem? hc)
  cases c with
  | added new => simp [Change.before?] at ha
  | updated old new =>
    simp only [Change.before?, Change.after?, Option.some.injEq] at ha hb
    rw [← ha, ← hb]
    exact horigin
  | deleted old => simp [Change.after?] at hb

/-- What is stored under a key stays so and keeps its origin until it is deleted. -/
theorem origin_of_lasting (h : s.Logged) {k : Key} {n m : Nat} (hnm : n ≤ m)
    (hlasting : ∀ i c, n ≤ i → i < m → s.log[i]? = some c → Resource.key c.object = k →
      c.after? ≠ none)
    {a : α} (ha : (Objects.replay (s.log.take n)).find? k = some a) :
    ∃ b, (Objects.replay (s.log.take m)).find? k = some b ∧
      Resource.origin b = Resource.origin a := by
  induction m, hnm using Nat.le_induction with
  | base => exact ⟨a, ha, rfl⟩
  | succ m hnm ih =>
    obtain ⟨b, hb, horigin⟩ := ih fun i c hni him => hlasting i c hni (by omega)
    cases hc : s.log[m]? with
    | none => exact ⟨b, by simpa [List.take_add_one, hc] using hb, horigin⟩
    | some c =>
      rw [Store.find?_replay] at hb ⊢
      rw [Store.past_succ hc, Store.get?_commit]
      by_cases hk : Resource.key c.object = k
      · obtain ⟨new, hnew⟩ :=
          Option.ne_none_iff_exists'.1 (hlasting m c hnm (Nat.lt_succ_self m) hc hk)
        have hold : c.before? = some b := by
          rw [← (h.records.legal m c hc).before, hk, hb]
        exact ⟨new, by rw [if_pos hk, hnew], (h.origin_of_change hc hold hnew).trans horigin⟩
      · exact ⟨b, by rw [if_neg hk, hb], horigin⟩

end Logged

/-! ## Every sequence of calls -/

/-- Whatever calls clients have made, the changes they were told of make the objects of the
store. What a change says it has found is what the changes before it have left, so this is
the old state of an update and the object of a deletion. The versions written grow with
each write, so none comes twice. Between its creation and its deletion an object has one
identifier and one time of creation. A call that fails leaves the objects, the count of
writes and the log as they are. -/
theorem replay_calls (calls : List (StoreCall α)) :
    let s := (empty : Shelf α).serveAll calls
    Objects.replay s.log = s.store.objects ∧
    (∀ n c, s.log[n]? = some c →
      (Objects.replay (s.log.take n)).find? (Resource.key c.object) = c.before?) ∧
    ((s.log.filterMap Change.after?).map Resource.version).Pairwise (· < ·) ∧
    (∀ k n m a b, n ≤ m →
      (∀ i c, n ≤ i → i < m → s.log[i]? = some c → Resource.key c.object = k →
        c ≠ .deleted c.object) →
      (Objects.replay (s.log.take n)).find? k = some a →
      (Objects.replay (s.log.take m)).find? k = some b →
      (Resource.metadata b).uid = (Resource.metadata a).uid ∧
        (Resource.metadata b).created = (Resource.metadata a).created) ∧
    (∀ call cause, (s.serve call).1 = .error cause → (s.serve call).2 = s) := by
  intro s
  have hs : s.Logged := logged_empty.serveAll calls
  refine ⟨hs.replay_eq, fun n c => hs.find?_before, hs.versions_increase, ?_, ?_⟩
  · intro k n m a b hnm hlasting ha hb
    have hkeeps : ∀ i c, n ≤ i → i < m → s.log[i]? = some c → Resource.key c.object = k →
        c.after? ≠ none := by
      intro i c hni him hc hk hnone
      have hnot := hlasting i c hni him hc hk
      cases c <;> simp_all [Change.after?, Change.object]
    obtain ⟨b', hb', horigin⟩ := hs.origin_of_lasting hnm hkeeps ha
    obtain rfl : b = b' := Option.some.inj (hb.symm.trans hb')
    exact Prod.mk.inj horigin
  · intro call cause hcause
    rcases serve_cases hs.records.sound call with ⟨-, -, heq⟩ | ⟨c, hok, -⟩
    · exact heq
    · rw [hcause] at hok
      cases hok

/-- A node as it is stored at a version, from the time of its creation on. -/
def north (uid : Nat) (second : Int) (version : Nat) : Node :=
  ⟨{ Meta.new "" "north" with
    uid := some ⟨BitVec.ofNat 128 uid⟩, created := some ⟨second, 0⟩, version }, ⟨[]⟩⟩

/-- A node is created, updated, updated once more on what was read before, deleted, and
created again by another client. -/
def northCalls : List (StoreCall Node) :=
  let node : Node := ⟨Meta.new "" "north", ⟨[]⟩⟩
  [.create ⟨⟨7⟩, ⟨60, 0⟩⟩ node, .update (north 9 90 1), .update (north 9 90 1),
    .delete ⟨"", "north"⟩, .create ⟨⟨8⟩, ⟨120, 0⟩⟩ node]

/-- The second update loses and nothing is told of it, the first one has not changed the
origin, and the node that is created again has another origin and a newer version. -/
theorem replay_calls_north :
    let s := (empty : Shelf Node).serveAll northCalls
    s.log = [.added (north 7 60 1), .updated (north 7 60 1) (north 7 60 2),
      .deleted (north 7 60 2), .added (north 8 120 4)] ∧
    Objects.replay s.log = s.store.objects ∧
    (Objects.replay (s.log.take 2)).find? ⟨"", "north"⟩ = some (north 7 60 2) ∧
    ((s.log.filterMap Change.after?).map Resource.version).Pairwise (· < ·) ∧
    (Resource.metadata (north 7 60 2)).uid = (Resource.metadata (north 7 60 1)).uid ∧
    (s.serve (.create ⟨⟨9⟩, ⟨180, 0⟩⟩ (north 9 180 0))).2 = s := by
  intro s
  obtain ⟨hreplay, hbefore, hversions, horigin, hfailed⟩ := replay_calls northCalls
  have hlog : s.log = [.added (north 7 60 1), .updated (north 7 60 1) (north 7 60 2),
    .deleted (north 7 60 2), .added (north 8 120 4)] := by decide +kernel
  refine ⟨hlog, hreplay, hbefore 2 (.deleted (north 7 60 2)) (by decide +kernel), hversions, ?_,
    hfailed _ (.alreadyExists "Node" "north") (by decide +kernel)⟩
  refine (horigin ⟨"", "north"⟩ 1 2 _ _ (by omega) ?_ (by decide +kernel) (by decide +kernel)).1
  intro i c hi hi' hc _
  obtain rfl : i = 1 := by omega
  change s.log[1]? = some c at hc
  rw [hlog] at hc
  cases hc
  simp

end Shelf

end GameFleet
