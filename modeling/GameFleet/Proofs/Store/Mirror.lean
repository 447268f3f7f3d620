import GameFleet.Proofs.Store.History
import GameFleet.Plane.Shelf
import GameFleet.Resource.Pod
import Mathlib.Logic.Relation

/-!
# An informer at a store

A `Mirror` is a store with the feed of its changes and an informer that follows the feed.
Clients write to the store at any time. The informer comes to the feed, lists the store,
takes over what it has listed, and then reads ; when it has missed news it lists the store
again and reads on. Writes may fall between any two of these moves (`Mirror.Step`), and
the feed may have room for any number of changes.

`Mirror.cache_eq_of_reachable` says that the cache is the store whenever there is nothing
to read and the informer is not about to list. Until then it is `Within` : under every
key the cache has what the store had at some moment since the change that is read next.
A change that is read moves every key on to the moment after it, unless the key is past
that moment already, and then it does not matter whether the change is dropped.
-/

set_option linter.unusedSectionVars false

open Relation

namespace GameFleet

variable {α : Type} [Resource α]

/-! ## Caches -/

namespace Objects

@[simp] theorem list_everything (os : Objects α) : os.list none .everything = os.values := by
  simp [list]

theorem snd_takeOver (listed : List α) (rest fresh : Objects α) :
    (takeOver rest fresh listed).2.2 =
      listed.foldl (fun os a => os.insert (Resource.key a) a) fresh := by
  induction listed generalizing rest fresh with
  | nil => rfl
  | cons a as ih =>
    rw [List.foldl_cons, ← ih (rest.erase (Resource.key a))]
    rfl

/-- Objects that are put into a table one after the other in the order of their keys are
what the table has under their keys. -/
theorem find?_foldl_insert {es : List (Key × α)} (hasc : Entries.Ascending es)
    (hkey : ∀ e ∈ es, Resource.key e.2 = e.1) (os : Objects α) (k : Key) :
    ((es.map Prod.snd).foldl (fun os a => os.insert (Resource.key a) a) os).find? k =
      (Entries.find? k es).or (os.find? k) := by
  induction es generalizing os with
  | nil => simp [Entries.find?]
  | cons e es ih =>
    obtain ⟨j, a⟩ := e
    obtain ⟨hlt, htail⟩ := List.pairwise_cons.1 hasc
    obtain ⟨hj, hes⟩ := List.forall_mem_cons.1 hkey
    simp only at hj
    rw [List.map_cons, List.foldl_cons, ih htail hes, hj, Table.find?_insert, Entries.find?]
    by_cases hk : j = k
    · have hnone : Entries.find? k es = none := by
        cases hfind : Entries.find? k es with
        | none => rfl
        | some b => exact absurd (hk ▸ hlt _ (Entries.mem_of_find? hfind)) (Ordered.lt_irrefl k)
      simp [hk, hnone]
    · simp [hk]

/-- A cache that is replaced by a list of a store is the store. -/
theorem relist_store {s : Store α} (hs : s.Sound) (cache : Objects α) :
    (cache.relist s.objects.values).2 = s.objects := by
  have hkey : ∀ e ∈ s.objects.entries, Resource.key e.2 = e.1 := fun e he =>
    hs.key_eq (Table.find?_eq_some_iff.2 he)
  refine Table.ext_find fun k => ?_
  calc (cache.relist s.objects.values).2.find? k
      = (takeOver cache .empty s.objects.values).2.2.find? k := rfl
    _ = (Entries.find? k s.objects.entries).or none := by
      rw [snd_takeOver]
      exact find?_foldl_insert s.objects.ascending hkey .empty k
    _ = s.objects.find? k := by
      rw [Option.or_none]
      rfl

theorem store_cases (cache : Objects α) (a : α) :
    (∀ k, (cache.store a).2.find? k =
      if Resource.key a = k then some a else cache.find? k) ∨
    (cache.store a).2 = cache ∧ ∃ old, cache.find? (Resource.key a) = some old ∧
      Resource.version a ≤ Resource.version old := by
  simp only [store]
  split
  · exact Or.inl fun k => Table.find?_insert _ _ _ _
  · next old hold =>
    split
    · next hle => exact Or.inr ⟨rfl, old, hold, hle⟩
    · exact Or.inl fun k => Table.find?_insert _ _ _ _

theorem remove_cases (cache : Objects α) (a : α) :
    (∀ k, (cache.remove a).2.find? k =
      if Resource.key a = k then none else cache.find? k) ∨
    (cache.remove a).2 = cache ∧ ∃ old, cache.find? (Resource.key a) = some old ∧
      Resource.version a < Resource.version old := by
  simp only [remove]
  split
  · next hnone =>
    refine Or.inl fun k => ?_
    split
    · next hk => exact hk ▸ hnone
    · rfl
  · next old hold =>
    split
    · exact Or.inl fun k => Table.find?_erase _ _ _
    · next hlt => exact Or.inr ⟨rfl, old, hold, Nat.lt_of_not_le hlt⟩

/-- A change is applied to the one key it is about, or dropped because the cache has
something as new, or newer if the object was deleted. -/
theorem apply_cases (cache : Objects α) (c : Change α) :
    (∀ k, (cache.apply c).2.find? k =
      if Resource.key c.object = k then c.after? else cache.find? k) ∨
    (cache.apply c).2 = cache ∧ ∃ old, cache.find? (Resource.key c.object) = some old ∧
      Resource.version c.object ≤ Resource.version old ∧
      (c.after? = none → Resource.version c.object < Resource.version old) := by
  cases c with
  | added a =>
    exact (cache.store_cases a).imp_right fun ⟨heq, old, hold, hle⟩ =>
      ⟨heq, old, hold, hle, fun hnone => by cases hnone⟩
  | updated _ a =>
    exact (cache.store_cases a).imp_right fun ⟨heq, old, hold, hle⟩ =>
      ⟨heq, old, hold, hle, fun hnone => by cases hnone⟩
  | deleted a =>
    exact (cache.remove_cases a).imp_right fun ⟨heq, old, hold, hlt⟩ =>
      ⟨heq, old, hold, hlt.le, fun _ => hlt⟩

/-- A change that a store admits is not dropped by a cache that has what the store has
under the key. -/
theorem find?_apply_of_eq {s : Store α} (hs : s.Sound) {c : Change α} (hc : s.Admits c)
    {cache : Objects α} {k : Key} (h : cache.find? k = s.get? k) :
    (cache.apply c).2.find? k = (s.commit c).get? k := by
  rw [Store.get?_commit]
  rcases cache.apply_cases c with happly | ⟨heq, old, hold, hle, hlt⟩
  · rw [happly, h]
  · split
    · next hk =>
      subst hk
      have hbefore : c.before? = some old := by rw [← hc.before, ← h, hold]
      have hold_le : Resource.version old ≤ s.version := hs.version_le (hc.before.trans hbefore)
      cases c with
      | added a => cases hbefore
      | updated _ a =>
        have hnew : Resource.version a = s.version + 1 := hc.version a rfl
        simp only [Change.object] at hle
        omega
      | deleted a =>
        cases hbefore
        exact absurd (hlt rfl) (Nat.lt_irrefl _)
    · rw [heq, h]

theorem find?_apply_or (cache : Objects α) (s : Store α) (c : Change α) (k : Key) :
    (cache.apply c).2.find? k = (s.commit c).get? k ∨
      (cache.apply c).2.find? k = cache.find? k := by
  rw [Store.get?_commit]
  rcases cache.apply_cases c with happly | ⟨heq, -⟩
  · rw [happly]
    split
    · exact Or.inl rfl
    · exact Or.inr rfl
  · exact Or.inr (by rw [heq])

end Objects

/-! ## Readings -/

namespace Feed

variable {β : Type} {f : Feed β} {cursor : Nat}

theorem read_eq_item {b : β} (h : (f.read cursor).1 = .item b) :
    f.read cursor = (.item b, cursor + 1) ∧ f.log.toList[cursor]? = some b := by
  unfold read at h ⊢
  split at h
  · cases h
  · next hnot =>
    rw [if_neg hnot]
    split at h
    · next b' hb =>
      cases h
      exact ⟨rfl, by rw [Array.getElem?_toList, hb]⟩
    · split at h <;> cases h

theorem lt_oldest_of_read_lagged {missed : Nat} (h : (f.read cursor).1 = .lagged missed) :
    cursor < f.oldest := by
  unfold read at h
  split at h
  · next hlt => exact hlt
  · split at h
    · cases h
    · split at h <;> cases h

theorem tail_le_of_read_idle (h : (f.read cursor).1 = .idle) : f.tail ≤ cursor := by
  unfold read at h
  split at h
  · cases h
  · split at h
    · cases h
    · next hnone => exact Array.getElem?_eq_none_iff.1 hnone

theorem toList_push (f : Feed β) (b : β) : (f.push b).log.toList = f.log.toList ++ [b] := by
  simp [push]

end Feed

/-- An informer that has not missed news applies the next change, or stays as it is, or
ends with the feed. -/
theorem Informer.follow_cases {i : Informer α} {feed : Feed (Change α)} {cursor : Nat}
    (hphase : i.phase = .following cursor) (hlag : ¬cursor < feed.oldest)
    (listed : Except StoreError (List α)) :
    (∃ c, feed.log.toList[cursor]? = some c ∧ (i.follow feed listed).2 =
      { i with cache := (i.cache.apply c).2, phase := .following (cursor + 1) }) ∨
    (i.follow feed listed).2 = i ∨ (i.follow feed listed).2 = i.finish (.ok ()) := by
  unfold follow
  rw [hphase]
  cases hread : feed.read cursor with
  | mk reading next =>
    cases reading with
    | item c =>
      obtain ⟨heq, hc⟩ := Feed.read_eq_item (congrArg Prod.fst hread)
      obtain rfl : cursor + 1 = next := congrArg Prod.snd (heq.symm.trans hread)
      exact Or.inl ⟨c, hc, by simp [hread]⟩
    | lagged missed => exact absurd (Feed.lt_oldest_of_read_lagged (congrArg Prod.fst hread)) hlag
    | idle => exact Or.inr (Or.inl (by simp [hread]))
    | ended => exact Or.inr (Or.inr (by simp [hread]))

/-! ## Caches of a past -/

/-- Under every key a cache has what the store of a log had at some moment since the first
`n` changes. -/
structure Within (log : List (Change α)) (n : Nat) (cache : Objects α) : Prop where
  le : n ≤ log.length
  find? : ∀ k, ∃ m, n ≤ m ∧ m ≤ log.length ∧ cache.find? k = (Store.past log m).get? k

namespace Within

variable {log : List (Change α)} {n : Nat} {cache : Objects α}

theorem snoc (h : Within log n cache) (c : Change α) : Within (log ++ [c]) n cache := by
  have hlen : (log ++ [c]).length = log.length + 1 := by simp
  refine ⟨by have := h.le; omega, fun k => ?_⟩
  obtain ⟨m, hnm, hm, hfind⟩ := h.find? k
  exact ⟨m, hnm, by omega, by rw [hfind, Store.past_append _ hm]⟩

/-- A list of the store at some moment is within the past from any earlier moment on. -/
theorem relist (hlog : Store.Legal log) {m : Nat} (hnm : n ≤ m) (hm : m ≤ log.length) :
    Within log n (cache.relist (Store.past log m).objects.values).2 := by
  refine ⟨hnm.trans hm, fun k => ⟨m, hnm, hm, ?_⟩⟩
  rw [Objects.relist_store (hlog.sound hm)]
  rfl

/-- A cache that applies the next change is within the past from the moment after it on. -/
theorem apply (h : Within log n cache) (hlog : Store.Legal log) {c : Change α}
    (hc : log[n]? = some c) : Within log (n + 1) (cache.apply c).2 := by
  have hn : n < log.length := (List.getElem?_eq_some_iff.1 hc).1
  refine ⟨hn, fun k => ?_⟩
  obtain ⟨m, hnm, hm, hfind⟩ := h.find? k
  rcases Nat.eq_or_lt_of_le hnm with rfl | hlt
  · -- the key is at the moment before the change, which is applied therefore
    refine ⟨n + 1, le_rfl, hn, ?_⟩
    rw [Store.past_succ hc]
    exact Objects.find?_apply_of_eq (hlog.sound hn.le) (hlog n c hc) hfind
  · rcases cache.find?_apply_or (Store.past log n) c k with happly | hkeep
    · exact ⟨n + 1, le_rfl, hn, by rw [Store.past_succ hc, happly]⟩
    · exact ⟨m, hlt, hm, hkeep.trans hfind⟩

theorem eq_past (h : Within log log.length cache) :
    cache = (Store.past log log.length).objects := by
  refine Table.ext_find fun k => ?_
  obtain ⟨m, hle, hm, hfind⟩ := h.find? k
  obtain rfl : m = log.length := Nat.le_antisymm hm hle
  exact hfind

end Within

/-! ## Mirrors -/

/-- What an informer is about to list the store for. -/
inductive Errand (α : Type) where
  /-- It came to the feed at a cursor, and goes on from there. -/
  | arrival (cursor : Nat)
  /-- It had missed news when the feed was so, and goes on with the oldest item left. -/
  | lag (seen : Feed (Change α))

namespace Errand

/-- Where the informer reads on when it has taken over its list. -/
def cursor : Errand α → Nat
  | .arrival cursor => cursor
  | .lag seen => seen.oldest

/-- The informer when it has taken over its list. -/
def takeOver (e : Errand α) (i : Informer α) (listed : List α) : Informer α :=
  match e with
  | .arrival cursor => (i.start cursor (.ok listed)).2
  | .lag seen => (i.follow seen (.ok listed)).2

/-- An informer that lags is where the feed has nothing left for it. -/
def Suits (e : Errand α) (i : Informer α) : Prop :=
  match e with
  | .arrival _ => True
  | .lag seen => ∃ cursor, i.phase = .following cursor ∧ cursor < seen.oldest

theorem takeOver_eq {e : Errand α} {i : Informer α} (h : e.Suits i) (listed : List α) :
    e.takeOver i listed = ⟨(i.cache.relist listed).2, true, .following e.cursor⟩ := by
  cases e with
  | arrival cursor => rfl
  | lag seen =>
    obtain ⟨cursor, hphase, hlt⟩ := h
    simp [takeOver, Errand.cursor, Informer.follow, hphase, Feed.read, hlt, Informer.relist]

end Errand

structure Mirror (α : Type) where
  shelf : Shelf α
  /-- Why the informer lists the store, while it does. -/
  errand : Option (Errand α)
  /-- What it has listed and not taken over yet. -/
  listed : Option (List α)

namespace Mirror

/-! ## Moves -/

/-- An empty store, a feed with so much room, and an informer that was not started. -/
def start (room : Nat) : Mirror α := ⟨{ Shelf.empty with feed := .new room }, none, none⟩

/-- The changes of the store so far. -/
def log (m : Mirror α) : List (Change α) := m.shelf.feed.log.toList

/-- The mirror after a write, which may have failed. -/
def wrote (m : Mirror α) (outcome : Except StoreError (Change α × Store α)) : Mirror α :=
  { m with shelf := (m.shelf.commit outcome).2 }

/-- The informer lists the store. -/
def list (m : Mirror α) : Mirror α :=
  { m with listed := some (m.shelf.store.objects.list none .everything) }

/-- The informer takes over what it has listed, if it has. -/
def takeOver (m : Mirror α) : Mirror α :=
  match m.errand, m.listed with
  | some e, some listed =>
    ⟨{ m.shelf with informer := e.takeOver m.shelf.informer listed }, none, none⟩
  | _, _ => m

/-- The informer reads what is next. -/
def read (m : Mirror α) : Mirror α :=
  { m with shelf := { m.shelf with informer := (m.shelf.informer.follow m.shelf.feed (.ok [])).2 } }

/-- What clients and the informer can do next. -/
inductive Step : Mirror α → Mirror α → Prop where
  | create (m : Mirror α) (birth : Birth) (a : α) :
    Step m (m.wrote (m.shelf.store.create birth a))
  | update (m : Mirror α) (a : α) : Step m (m.wrote (m.shelf.store.update a))
  | delete (m : Mirror α) (k : Key) : Step m (m.wrote (m.shelf.store.delete k))
  /-- The informer is started and comes to the feed. -/
  | subscribe (m : Mirror α) (hidle : m.shelf.informer.phase = .idle) (hnone : m.errand = none) :
    Step m { m with errand := some (.arrival m.shelf.feed.tail) }
  | list (m : Mirror α) (hsome : m.errand.isSome) : Step m m.list
  | takeOver (m : Mirror α) : Step m m.takeOver
  /-- The informer finds that it has missed news. -/
  | lag (m : Mirror α) (hnone : m.errand = none) (hlag : m.shelf.lags = true) :
    Step m { m with errand := some (.lag m.shelf.feed) }
  | read (m : Mirror α) (hnone : m.errand = none) (hlag : m.shelf.lags = false) : Step m m.read

/-- Any number of steps. -/
abbrev Run : Mirror α → Mirror α → Prop := ReflTransGen Step

/-- A mirror that a run from an empty store leads to. -/
def Reachable (room : Nat) (m : Mirror α) : Prop := Run (start room) m

/-! ## Coherence -/

/-- The feed is the log of the store. An informer that follows the feed has a cache within
the past from its cursor on, and one that lists the store will have such a cache. -/
structure Coherent (m : Mirror α) : Prop where
  records : Store.Records m.log m.shelf.store
  cache : m.errand = none → ∀ cursor, m.shelf.informer.phase = .following cursor →
    Within m.log cursor m.shelf.informer.cache
  errand : ∀ e, m.errand = some e → e.Suits m.shelf.informer ∧ e.cursor ≤ m.log.length
  listed : ∀ listed, m.listed = some listed → ∃ e n, m.errand = some e ∧ e.cursor ≤ n ∧
    n ≤ m.log.length ∧ listed = (Store.past m.log n).objects.values

theorem coherent_start (room : Nat) : (start room : Mirror α).Coherent where
  records := Store.records_empty
  cache _ cursor hphase := by cases hphase
  errand e he := by cases he
  listed listed hl := by cases hl

namespace Coherent

variable {m : Mirror α}

theorem listed_eq_none (h : m.Coherent) (hnone : m.errand = none) (listed : List α) :
    m.listed ≠ some listed := by
  intro hl
  obtain ⟨e, n, he, -⟩ := h.listed listed hl
  rw [hnone] at he
  cases he

theorem wrote (h : m.Coherent) {outcome : Except StoreError (Change α × Store α)}
    (hs : ∀ c s, outcome = .ok (c, s) → Store.Records (m.log ++ [c]) s) :
    (m.wrote outcome).Coherent := by
  rcases outcome with cause | ⟨c, s⟩
  · exact h
  · have hlog : (m.wrote (.ok (c, s))).log = m.log ++ [c] := m.shelf.feed.toList_push c
    have hlen : (m.log ++ [c]).length = m.log.length + 1 := by simp
    constructor
    · exact hlog.symm ▸ hs c s rfl
    · intro hnone cursor hphase
      rw [hlog]
      exact (h.cache hnone cursor hphase).snoc c
    · intro e he
      obtain ⟨hsuits, hle⟩ := h.errand e he
      exact ⟨hsuits, by rw [hlog]; omega⟩
    · intro listed hl
      obtain ⟨e, n, he, hen, hn, hlisted⟩ := h.listed listed hl
      exact ⟨e, n, he, hen, by rw [hlog]; omega, by rw [hlog, Store.past_append _ hn, hlisted]⟩

theorem list (h : m.Coherent) (hsome : m.errand.isSome) : m.list.Coherent := by
  obtain ⟨e, he⟩ := Option.isSome_iff_exists.1 hsome
  refine ⟨h.records, h.cache, h.errand, fun listed hl => ?_⟩
  obtain rfl : m.shelf.store.objects.list none .everything = listed := Option.some.inj hl
  refine ⟨e, m.log.length, he, (h.errand e he).2, le_rfl, ?_⟩
  rw [Objects.list_everything]
  exact congrArg (fun s => s.objects.values) h.records.past_eq.symm

theorem takeOver (h : m.Coherent) : m.takeOver.Coherent := by
  unfold Mirror.takeOver
  split
  · next e listed he hl =>
    obtain ⟨e', n, he', hen, hn, rfl⟩ := h.listed listed hl
    obtain rfl : e' = e := Option.some.inj (he'.symm.trans he)
    refine ⟨h.records, fun _ cursor hphase => ?_, fun e he => (by cases he),
      fun listed hl => (by cases hl)⟩
    simp only [Errand.takeOver_eq (h.errand e' he).1] at hphase ⊢
    cases hphase
    exact Within.relist h.records.legal hen hn
  · exact h

theorem read (h : m.Coherent) (hnone : m.errand = none) (hlag : m.shelf.lags = false) :
    m.read.Coherent := by
  refine ⟨h.records, fun _ cursor hphase => ?_, fun e he => ?_, h.listed⟩
  · change Within m.log cursor (m.shelf.informer.follow m.shelf.feed (.ok [])).2.cache
    change (m.shelf.informer.follow m.shelf.feed (.ok [])).2.phase = _ at hphase
    cases hbefore : m.shelf.informer.phase with
    | following start =>
      have hnot : ¬start < m.shelf.feed.oldest := by
        simpa [Shelf.lags, hbefore] using hlag
      rcases Informer.follow_cases hbefore hnot (.ok []) with ⟨c, hc, heq⟩ | heq | heq
      · rw [heq] at hphase ⊢
        cases hphase
        exact (h.cache hnone start hbefore).apply h.records.legal hc
      · rw [heq] at hphase ⊢
        exact h.cache hnone cursor hphase
      · rw [heq] at hphase
        cases hphase
    | idle => simp [Informer.follow, hbefore] at hphase
    | finished result => simp [Informer.follow, hbefore] at hphase
  · exact absurd (hnone.symm.trans he) (by simp)

theorem step {m' : Mirror α} (h : m.Coherent) (hs : Step m m') : m'.Coherent := by
  cases hs with
  | create birth a => exact h.wrote fun c s hw => h.records.create hw
  | update a => exact h.wrote fun c s hw => h.records.update hw
  | delete k => exact h.wrote fun c s hw => h.records.delete hw
  | subscribe hidle hnone =>
    refine ⟨h.records, fun hno => (by cases hno), fun e he => ?_,
      fun listed hl => absurd hl (h.listed_eq_none hnone listed)⟩
    cases he
    exact ⟨trivial, Array.length_toList.ge⟩
  | list hsome => exact h.list hsome
  | takeOver => exact h.takeOver
  | lag hnone hlag =>
    refine ⟨h.records, fun hno => (by cases hno), fun e he => ?_,
      fun listed hl => absurd hl (h.listed_eq_none hnone listed)⟩
    cases he
    refine ⟨?_, by simp [Errand.cursor, Feed.oldest, Feed.tail, log]⟩
    unfold Shelf.lags at hlag
    split at hlag
    · next cursor hphase => exact ⟨cursor, hphase, of_decide_eq_true hlag⟩
    · cases hlag
  | read hnone hlag => exact h.read hnone hlag

theorem run {m' : Mirror α} (h : m.Coherent) (hr : Run m m') : m'.Coherent := by
  induction hr with
  | refl => exact h
  | tail _ hs ih => exact ih.step hs

end Coherent

/-- However writes fall among the moves of an informer, and however often it misses news,
its cache is the store whenever it follows the feed and there is nothing to read. -/
theorem cache_eq_of_reachable {room : Nat} {m : Mirror α} (h : Reachable room m)
    (hnone : m.errand = none) {cursor : Nat} (hphase : m.shelf.informer.phase = .following cursor)
    (hread : (m.shelf.feed.read cursor).1 = .idle) :
    m.shelf.informer.cache = m.shelf.store.objects := by
  have hm : m.Coherent := (coherent_start room).run h
  have hcache := hm.cache hnone cursor hphase
  obtain rfl : cursor = m.log.length :=
    Nat.le_antisymm hcache.le (by simpa [log, Feed.tail] using Feed.tail_le_of_read_idle hread)
  rw [hcache.eq_past, hm.records.past_eq]

/-- A node of a name, as it is read at a version. -/
def node (name : String) (version : Nat) : Node :=
  ⟨{ Meta.new "" name with version }, ⟨[]⟩⟩

def birth : Birth := ⟨⟨7⟩, ⟨0, 0⟩⟩

/-- An informer has listed a node, and then misses news of it and of another. -/
def behind : Mirror Node :=
  let m := start 2
  let m := { m with errand := some (.arrival m.shelf.feed.tail) }
  let m := m.wrote (m.shelf.store.create birth (node "north" 0))
  let m := m.list.takeOver
  let m := m.wrote (m.shelf.store.create birth (node "south" 0))
  m.wrote (m.shelf.store.update (node "north" 1))

/-- While the informer lists the store again the first node is deleted, so it misses news
once more. When it has listed the store for the third time it still reads an old change of
the node that was deleted, and puts the node back until it reads of the deletion. -/
def caughtUp : Mirror Node :=
  let m := { behind with errand := some (.lag behind.shelf.feed) }
  let m := m.wrote (m.shelf.store.delete ⟨"", "north"⟩)
  let m := m.list.takeOver
  let m := { m with errand := some (.lag m.shelf.feed) }
  m.list.takeOver.read.read

theorem reachable_behind : Reachable 2 behind :=
  ReflTransGen.refl
    |>.tail (.subscribe _ rfl rfl)
    |>.tail (.create _ birth (node "north" 0))
    |>.tail (.list _ (by decide +kernel))
    |>.tail (.takeOver _)
    |>.tail (.create _ birth (node "south" 0))
    |>.tail (.update _ (node "north" 1))

theorem reachable_caughtUp : Reachable 2 caughtUp :=
  reachable_behind
    |>.tail (.lag _ (Option.isNone_iff_eq_none.1 (by decide +kernel)) (by decide +kernel))
    |>.tail (.delete _ ⟨"", "north"⟩)
    |>.tail (.list _ (by decide +kernel))
    |>.tail (.takeOver _)
    |>.tail (.lag _ (Option.isNone_iff_eq_none.1 (by decide +kernel)) (by decide +kernel))
    |>.tail (.list _ (by decide +kernel))
    |>.tail (.takeOver _)
    |>.tail (.read _ (Option.isNone_iff_eq_none.1 (by decide +kernel)) (by decide +kernel))
    |>.tail (.read _ (Option.isNone_iff_eq_none.1 (by decide +kernel)) (by decide +kernel))

theorem cache_eq_caughtUp :
    (behind.shelf.lags = true ∧ caughtUp.shelf.store.objects.keys = [⟨"", "south"⟩]) ∧
      caughtUp.shelf.informer.cache = caughtUp.shelf.store.objects := by
  have hnone : caughtUp.errand = none := Option.isNone_iff_eq_none.1 (by decide +kernel)
  have hphase : caughtUp.shelf.informer.phase = .following 4 := by rfl
  have hread : (caughtUp.shelf.feed.read 4).1 = .idle := by decide +kernel
  exact ⟨by decide +kernel, cache_eq_of_reachable reachable_caughtUp hnone hphase hread⟩

end Mirror

end GameFleet
