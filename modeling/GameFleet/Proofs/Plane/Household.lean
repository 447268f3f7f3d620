import GameFleet.Proofs.Plane.Crew
import GameFleet.Proofs.Store.Mirror

/-!
# Households

A `Household` is a crew with the informer that follows the collections, and with the cleanups
that were called for and not begun yet. The informer moves as in a `Mirror`, and what it tells
of deleted collections calls for cleanups (`Household.Step`). Look-ups are answered from its
cache, so what the crew may do next depends on it.

A collection that leaves the cache is told of, whether the informer reads of its deletion or
misses that and finds it gone from the store (`Mirror.Move.deleted`). A household that is quiet
has the collections in its cache that are stored (`Household.Kept.find?_of_quiet`).
-/

namespace GameFleet

open Relation

/-! ## What leaves a cache -/

namespace Objects

variable {α : Type} [Resource α]

/-- Objects are under their own keys. -/
def Keyed (os : Objects α) : Prop := ∀ k a, os.find? k = some a → Resource.key a = k

variable {cache : Objects α} {k : Key} {a : α}

theorem keyed_empty : Keyed (.empty : Objects α) := fun _ _ h => by cases h

theorem Keyed.insert (h : cache.Keyed) (a : α) : Keyed (Table.insert cache (Resource.key a) a) := by
  intro k b hfind
  rw [Table.find?_insert] at hfind
  split at hfind
  · next hk => rw [← Option.some.inj hfind, hk]
  · exact h k b hfind

theorem keyed_relist (cache : Objects α) (listed : List α) : (cache.relist listed).2.Keyed := by
  have hfold : ∀ (listed : List α) (os : Objects α), os.Keyed →
      Keyed (listed.foldl (fun os a => os.insert (Resource.key a) a) os) := by
    intro listed
    induction listed with
    | nil => exact fun _ h => h
    | cons a as ih => exact fun os h => ih _ (h.insert a)
  change (takeOver cache .empty listed).2.2.Keyed
  rw [snd_takeOver]
  exact hfold listed _ keyed_empty

theorem Keyed.apply (h : cache.Keyed) (c : Change α) : (cache.apply c).2.Keyed := by
  intro k a hfind
  rcases cache.apply_cases c with happly | ⟨heq, -⟩
  · rw [happly] at hfind
    split at hfind
    · next hk => rw [← hk, Change.object_eq_of_after? hfind]
    · exact h k a hfind
  · rw [heq] at hfind
    exact h k a hfind

/-- What is not listed is left over. -/
theorem find?_left {listed : List α} {rest fresh : Objects α}
    (h : (takeOver rest fresh listed).2.2.find? k = none) :
    fresh.find? k = none ∧ (takeOver rest fresh listed).2.1.find? k = rest.find? k := by
  induction listed generalizing rest fresh with
  | nil => exact ⟨h, rfl⟩
  | cons b bs ih =>
    obtain ⟨hfresh, hleft⟩ := @ih (rest.erase (Resource.key b)) _ h
    rw [Table.find?_insert] at hfresh
    split at hfresh
    · cases hfresh
    · next hne =>
      rw [Table.find?_erase, if_neg hne] at hleft
      exact ⟨hfresh, hleft⟩

/-- An object that a list has not any more is told of. -/
theorem deleted_of_relist {listed : List α} (h : cache.find? k = some a)
    (hgone : (cache.relist listed).2.find? k = none) :
    .deleted a ∈ (cache.relist listed).1 := by
  obtain ⟨-, hleft⟩ := find?_left hgone
  refine List.mem_append_right _ (List.mem_map_of_mem (f := Change.deleted) ?_)
  exact List.mem_map_of_mem (f := Prod.snd) (Table.find?_eq_some_iff.1 (hleft.trans h))

theorem find?_store_ne_none (b : α) (h : cache.find? k = some a) :
    (cache.store b).2.find? k ≠ none := by
  rcases cache.store_cases b with hstore | ⟨heq, -⟩
  · rw [hstore]
    split
    · exact Option.some_ne_none b
    · exact h ▸ Option.some_ne_none a
  · rw [heq, h]
    exact Option.some_ne_none a

/-- An object that a change takes out of a cache is told of. -/
theorem deleted_of_apply {c : Change α} (h : cache.find? k = some a)
    (hgone : (cache.apply c).2.find? k = none) :
    ∃ b, .deleted b ∈ (cache.apply c).1 ∧ Resource.key b = k := by
  cases c with
  | added b => exact absurd hgone (find?_store_ne_none b h)
  | updated _ b => exact absurd hgone (find?_store_ne_none b h)
  | deleted b =>
    simp only [apply, remove] at hgone ⊢
    split at hgone
    · exact absurd (hgone.symm.trans h) (Option.some_ne_none a).symm
    · next old _ =>
      split at hgone
      · next hle =>
        rw [Table.find?_erase] at hgone
        split at hgone
        · next hk => exact ⟨b, by simp [hle], hk⟩
        · exact absurd (hgone.symm.trans h) (Option.some_ne_none a).symm
      · exact absurd (hgone.symm.trans h) (Option.some_ne_none a).symm

end Objects

theorem Within.append {α : Type} [Resource α] {log : List (Change α)} {n : Nat} {cache : Objects α}
    (h : Within log n cache) (more : List (Change α)) : Within (log ++ more) n cache := by
  have hle : log.length ≤ (log ++ more).length := by simp
  refine ⟨h.le.trans hle, fun k => ?_⟩
  obtain ⟨m, hnm, hm, hfind⟩ := h.find? k
  exact ⟨m, hnm, hm.trans hle, by rw [hfind, Store.past_append _ hm]⟩

/-! ## Moves of an informer -/

namespace Errand

variable {α : Type} [Resource α]

/-- What the informer tells when it takes over its list. -/
def told (e : Errand α) (i : Informer α) (listed : List α) : List (Change α) :=
  match e with
  | .arrival cursor => (i.start cursor (.ok listed)).1
  | .lag seen => (i.follow seen (.ok listed)).1

theorem told_eq {e : Errand α} {i : Informer α} (h : e.Suits i) (listed : List α) :
    e.told i listed = (i.cache.relist listed).1 := by
  cases e with
  | arrival cursor => rfl
  | lag seen =>
    obtain ⟨cursor, hphase, hlt⟩ := h
    simp [told, Informer.follow, hphase, Feed.read, hlt, Informer.relist]

end Errand

namespace Mirror

variable {α : Type} [Resource α] {m m' : Mirror α} {told : List (Change α)}

/-- What an informer does, and the changes of its cache that it tells. -/
inductive Move : Mirror α → List (Change α) → Mirror α → Prop where
  | subscribe (m : Mirror α) (hidle : m.shelf.informer.phase = .idle) (hnone : m.errand = none) :
    Move m [] { m with errand := some (.arrival m.shelf.feed.tail) }
  | list (m : Mirror α) (hsome : m.errand.isSome) : Move m [] m.list
  | takeOver (m : Mirror α) (e : Errand α) (listed : List α) (herrand : m.errand = some e)
    (hlisted : m.listed = some listed) : Move m (e.told m.shelf.informer listed) m.takeOver
  | lag (m : Mirror α) (hnone : m.errand = none) (hlag : m.shelf.lags = true) :
    Move m [] { m with errand := some (.lag m.shelf.feed) }
  | read (m : Mirror α) (hnone : m.errand = none) (hlag : m.shelf.lags = false) :
    Move m (m.shelf.informer.follow m.shelf.feed (.ok [])).1 m.read

theorem Move.step (h : Move m told m') : Step m m' := by
  cases h with
  | subscribe hidle hnone => exact .subscribe m hidle hnone
  | list hsome => exact .list m hsome
  | takeOver e listed herrand hlisted => exact .takeOver m
  | lag hnone hlag => exact .lag m hnone hlag
  | read hnone hlag => exact .read m hnone hlag

/-- Moves leave the store and the feed alone. -/
theorem Move.shelf_eq (h : Move m told m') :
    m'.shelf = { m.shelf with informer := m'.shelf.informer } := by
  cases h with
  | takeOver e listed herrand hlisted => simp [Mirror.takeOver, herrand, hlisted]
  | _ => rfl

/-- What an informer that has not missed news does by a reading. -/
theorem read_cases (hlag : m.shelf.lags = false) :
    (∃ (cursor : Nat) (c : Change α), m.log[cursor]? = some c ∧
      m.read.shelf.informer.cache = (m.shelf.informer.cache.apply c).2 ∧
      (m.shelf.informer.follow m.shelf.feed (.ok [])).1 = (m.shelf.informer.cache.apply c).1) ∨
    (m.read.shelf.informer.cache = m.shelf.informer.cache ∧
      (m.shelf.informer.follow m.shelf.feed (.ok [])).1 = []) := by
  simp only [Mirror.read, Informer.follow]
  cases hphase : m.shelf.informer.phase with
  | idle => exact .inr ⟨rfl, rfl⟩
  | finished result => exact .inr ⟨rfl, rfl⟩
  | following cursor =>
    simp only
    cases hread : m.shelf.feed.read cursor with
    | mk reading next =>
      cases reading with
      | item c =>
        obtain ⟨-, hc⟩ := Feed.read_eq_item (congrArg Prod.fst hread)
        exact .inl ⟨cursor, c, hc, rfl, rfl⟩
      | lagged missed =>
        have hbehind := Feed.lt_oldest_of_read_lagged (congrArg Prod.fst hread)
        simp [Shelf.lags, hphase, hbehind] at hlag
      | idle => exact .inr ⟨rfl, rfl⟩
      | ended => exact .inr ⟨rfl, rfl⟩

/-- The cache after a move is the one before, or a list, or the one with a change. -/
theorem Move.cache_cases (h : Move m told m') (hm : m.Coherent) :
    m'.shelf.informer.cache = m.shelf.informer.cache ∨
    (∃ listed, m'.shelf.informer.cache = (m.shelf.informer.cache.relist listed).2 ∧
      told = (m.shelf.informer.cache.relist listed).1) ∨
    ∃ c, m'.shelf.informer.cache = (m.shelf.informer.cache.apply c).2 ∧
      told = (m.shelf.informer.cache.apply c).1 := by
  cases h with
  | subscribe hidle hnone => exact .inl rfl
  | list hsome => exact .inl rfl
  | takeOver e listed herrand hlisted =>
    have hsuits := (hm.errand e herrand).1
    refine .inr (.inl ⟨listed, ?_, e.told_eq hsuits listed⟩)
    simp only [Mirror.takeOver, herrand, hlisted]
    rw [e.takeOver_eq hsuits]
  | lag hnone hlag => exact .inl rfl
  | read hnone hlag =>
    rcases read_cases hlag with ⟨-, c, -, heq, htold⟩ | ⟨heq, -⟩
    · exact .inr (.inr ⟨c, heq, htold⟩)
    · exact .inl heq

theorem Move.keyed (h : Move m told m') (hm : m.Coherent) (hkeyed : m.shelf.informer.cache.Keyed) :
    m'.shelf.informer.cache.Keyed := by
  rcases h.cache_cases hm with heq | ⟨listed, heq, -⟩ | ⟨c, heq, -⟩ <;> rw [heq]
  · exact hkeyed
  · exact Objects.keyed_relist _ listed
  · exact hkeyed.apply c

/-- An object that leaves the cache is told of. -/
theorem Move.deleted (h : Move m told m') (hm : m.Coherent)
    (hkeyed : m.shelf.informer.cache.Keyed) {k : Key} {a : α}
    (ha : m.shelf.informer.cache.find? k = some a)
    (hgone : m'.shelf.informer.cache.find? k = none) :
    ∃ b, .deleted b ∈ told ∧ Resource.key b = k := by
  rcases h.cache_cases hm with heq | ⟨listed, heq, rfl⟩ | ⟨c, heq, rfl⟩ <;> rw [heq] at hgone
  · rw [ha] at hgone
    cases hgone
  · exact ⟨a, Objects.deleted_of_relist ha hgone, hkeyed k a ha⟩
  · exact Objects.deleted_of_apply ha hgone

/-- A mirror whose store has had more changes goes on to be coherent. -/
theorem Coherent.grown (hm : m.Coherent) (hinformer : m'.shelf.informer = m.shelf.informer)
    (herrand : m'.errand = m.errand) (hlisted : m'.listed = m.listed) (hlog : m.log <+: m'.log)
    (hrecords : Store.Records m'.log m'.shelf.store) : m'.Coherent := by
  obtain ⟨more, hmore⟩ := hlog
  have hlength : m.log.length ≤ m'.log.length := by
    rw [← hmore, List.length_append]
    exact Nat.le_add_right _ _
  constructor
  case records => exact hrecords
  case cache =>
    rw [herrand, hinformer, ← hmore]
    exact fun hnone cursor hphase => (hm.cache hnone cursor hphase).append more
  case errand =>
    rw [herrand, hinformer]
    exact fun e he => ⟨(hm.errand e he).1, (hm.errand e he).2.trans hlength⟩
  case listed =>
    rw [herrand, hlisted]
    intro listed hl
    obtain ⟨e, n, he, hen, hn, heq⟩ := hm.listed listed hl
    exact ⟨e, n, he, hen, hn.trans hlength, by rw [← hmore, Store.past_append _ hn, heq]⟩

/-- An informer that has read everything has those objects in its cache that are stored. -/
theorem Coherent.find?_of_idle (hm : m.Coherent) (hnone : m.errand = none) {cursor : Nat}
    (hphase : m.shelf.informer.phase = .following cursor)
    (hread : (m.shelf.feed.read cursor).1 = .idle) (k : Key) :
    m.shelf.informer.cache.find? k = m.shelf.store.get? k := by
  obtain ⟨moment, hle, hmoment, hfind⟩ := (hm.cache hnone cursor hphase).find? k
  have hlast : m.log.length ≤ cursor := Feed.tail_le_of_read_idle hread
  obtain rfl : moment = m.log.length := hmoment.antisymm (hlast.trans hle)
  exact hfind.trans (congrArg (·.get? k) hm.records.past_eq)

end Mirror

/-! ## Households -/

structure Household where
  crew : Crew
  /-- How many changes of collections can still be read. -/
  room : Nat
  informer : Informer Collection
  /-- Why the informer lists the collections, while it does. -/
  errand : Option (Errand Collection)
  /-- What it has listed and not taken over yet. -/
  listed : Option (List Collection)
  /-- The deleted collections that no cleanup was begun for. -/
  pending : List Collection

/-- The collection that a change takes. -/
def Change.departed? : Change Collection → Option Collection
  | .deleted c => some c
  | _ => none

theorem Cleanup.after?_collection (change : Change Collection) :
    Cleanup.after? .collection change = change.departed?.map Cleanup.collection := by
  cases change <;> rfl

namespace Household

/-- The collections and their informer. -/
def mirror (h : Household) : Mirror Collection where
  shelf := { Shelf.empty with
    store := h.crew.world.stores .collection
    feed := ⟨(h.crew.world.logs .collection).toArray, h.room, false⟩
    informer := h.informer }
  errand := h.errand
  listed := h.listed

/-- The household when its informer has made a move and told of changes. -/
def informed (h : Household) (m : Mirror Collection) (told : List (Change Collection)) :
    Household :=
  { h with
    informer := m.shelf.informer
    errand := m.errand
    listed := m.listed
    pending := h.pending ++ told.filterMap Change.departed? }

variable {rules : Objects Collection → Regime} {h h' : Household}

theorem mirror_informed {m : Mirror Collection} {told : List (Change Collection)}
    (hmove : h.mirror.Move told m) : (h.informed m told).mirror = m := by
  obtain ⟨shelf, errand, listed⟩ := m
  have hshelf := hmove.shelf_eq
  simp only at hshelf
  rw [hshelf]
  rfl

/-- What may happen next, if the rules that the crew is under depend on the cache. -/
inductive Step (rules : Objects Collection → Regime) : Household → Household → Prop where
  | work (h : Household) (crew : Crew) (hstep : Crew.Step (rules h.informer.cache) h.crew crew) :
    Step rules h { h with crew }
  | inform (h : Household) (m : Mirror Collection) (told : List (Change Collection))
    (hmove : h.mirror.Move told m) : Step rules h (h.informed m told)
  /-- A cleanup that was called for begins. -/
  | release (h : Household) (before after : List Collection) (c : Collection)
    (hpending : h.pending = before ++ c :: after) :
    Step rules h { h with
      crew := { h.crew with tasks := h.crew.tasks ++ [⟨.release c, Cleanup.collection c⟩] }
      pending := before ++ after }

abbrev Run (rules : Objects Collection → Regime) : Household → Household → Prop :=
  ReflTransGen (Step rules)

/-- Nothing is left to do, and the informer has read everything. -/
structure Quiet (h : Household) : Prop where
  tasks : h.crew.tasks = []
  pending : h.pending = []
  errand : h.errand = none
  read : ∃ cursor, h.informer.phase = .following cursor ∧
    (h.mirror.shelf.feed.read cursor).1 = .idle

/-- Logs and caches are what they should be. -/
structure Kept (h : Household) : Prop where
  recorded : h.crew.world.Recorded
  coherent : h.mirror.Coherent
  keyed : h.informer.cache.Keyed

theorem Kept.step (hkept : h.Kept) (hstep : Step rules h h') : h'.Kept := by
  cases hstep with
  | work crew hstep =>
    have hrecorded := hstep.recorded hkept.recorded
    refine ⟨hrecorded, ?_, hkept.keyed⟩
    exact hkept.coherent.grown rfl rfl rfl (hstep.logs .collection) (hrecorded .collection)
  | inform m told hmove =>
    refine ⟨hkept.recorded, ?_, hmove.keyed hkept.coherent hkept.keyed⟩
    rw [mirror_informed hmove]
    exact hkept.coherent.step hmove.step
  | release before after c hpending => exact ⟨hkept.recorded, hkept.coherent, hkept.keyed⟩

/-- A quiet household has those collections in its cache that are stored. -/
theorem Kept.find?_of_quiet (hkept : h.Kept) (hquiet : h.Quiet) (k : Key) :
    h.informer.cache.find? k = (h.crew.world.stores .collection).get? k := by
  obtain ⟨cursor, hphase, hread⟩ := hquiet.read
  exact hkept.coherent.find?_of_idle hquiet.errand hphase hread k

end Household

end GameFleet
