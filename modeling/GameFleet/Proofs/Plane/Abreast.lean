import GameFleet.Proofs.Plane.Household

/-!
# Deletions that are told once

What an informer tells of deletions is all that its handlers come to know of them. As long as it
reads one change after the other it tells of each deletion when it reads of it, with the object as
it was deleted. A list tells of what is gone from it, but with the object as the cache had it, and
not of what was made again in the meantime. So each deletion is told once and as it was, if the
informer lists the store only when it has read of all deletions (`Mirror.Abreast.move`).
-/

namespace GameFleet

variable {α : Type}

/-- The objects that go with a change. -/
def Change.gone : Change α → List α
  | .deleted a => [a]
  | _ => []

/-! ## Stretches without deletions -/

/-- No object is deleted by the changes from one moment to another. -/
def Store.Keeps (log : List (Change α)) (n m : Nat) : Prop :=
  ∀ i c, n ≤ i → i < m → log[i]? = some c → c.gone = []

namespace Store.Keeps

variable {log more : List (Change α)} {n m : Nat}

theorem mono {n' m' : Nat} (h : Keeps log n m) (hn : n ≤ n') (hm : m' ≤ m) : Keeps log n' m' :=
  fun i c hi him => h i c (hn.trans hi) (him.trans_le hm)

theorem append (h : Keeps log n m) (hm : m ≤ log.length) : Keeps (log ++ more) n m := by
  intro i c hi him hc
  rw [List.getElem?_append_left (by omega)] at hc
  exact h i c hi him hc

/-- The objects that go are those that go later. -/
theorem drop (h : Keeps log n m) (hnm : n ≤ m) :
    (log.drop n).flatMap Change.gone = (log.drop m).flatMap Change.gone := by
  induction m, hnm using Nat.le_induction with
  | base => rfl
  | succ m hnm ih =>
    rw [ih (h.mono le_rfl (Nat.le_succ m))]
    rcases Nat.lt_or_ge m log.length with hm | hm
    · rw [List.drop_eq_getElem_cons hm, List.flatMap_cons,
        h m _ hnm (Nat.lt_succ_self m) (List.getElem?_eq_getElem hm), List.nil_append]
    · rw [List.drop_eq_nil_of_le hm, List.drop_eq_nil_of_le (hm.trans (Nat.le_succ m))]

theorem of_drop (h : (log.drop n).flatMap Change.gone = []) (m : Nat) : Keeps log n m := by
  intro i c hi _ hc
  refine List.flatMap_eq_nil_iff.1 h c (List.mem_of_getElem? (i := i - n) ?_)
  rwa [List.getElem?_drop, Nat.add_sub_cancel' hi]

end Store.Keeps

variable [Resource α]

/-- What is not deleted is there later, as new as it was or newer. -/
theorem Store.exists_newer {log : List (Change α)} (hlog : Legal log) {n m : Nat} (hnm : n ≤ m)
    (hm : m ≤ log.length) (hkeeps : Keeps log n m) {k : Key} {a : α}
    (ha : (past log n).get? k = some a) :
    ∃ b, (past log m).get? k = some b ∧ Resource.version a ≤ Resource.version b := by
  induction m, hnm using Nat.le_induction with
  | base => exact ⟨a, ha, le_rfl⟩
  | succ m hnm ih =>
    obtain ⟨b, hb, hle⟩ := ih (by omega) (hkeeps.mono le_rfl (Nat.le_succ m))
    have hget := List.getElem?_eq_getElem (by omega : m < log.length)
    have hgone := hkeeps m _ hnm (Nat.lt_succ_self m) hget
    rw [past_succ hget, get?_commit]
    split
    · have hbefore := (hlog.sound (by omega : m ≤ log.length)).version_le hb
      cases hafter : log[m].after? with
      | none =>
        cases hchange : log[m] with
        | deleted c => rw [hchange] at hgone; cases hgone
        | added c => rw [hchange] at hafter; cases hafter
        | updated old c => rw [hchange] at hafter; cases hafter
      | some c =>
        have hversion := (hlog m _ hget).version c hafter
        exact ⟨c, rfl, by omega⟩
    · exact ⟨b, hb, hle⟩

/-! ## What a cache tells -/

namespace Objects

variable {cache : Objects α}

theorem gone_store (cache : Objects α) (a : α) : (cache.store a).1.flatMap Change.gone = [] := by
  unfold store
  simp only
  split
  · rfl
  · split <;> rfl

theorem left_eq_none {rest fresh : Objects α} {listed : List α} {k : Key}
    (h : rest.find? k = none ∨ ∃ a ∈ listed, Resource.key a = k) :
    (takeOver rest fresh listed).2.1.find? k = none := by
  induction listed generalizing rest fresh with
  | nil =>
    rcases h with h | ⟨a, ha, -⟩
    · exact h
    · cases ha
  | cons b bs ih =>
    refine ih ?_
    rw [Table.find?_erase]
    rcases h with h | ⟨a, ha, rfl⟩
    · exact .inl (by rw [h, ite_self])
    · rcases List.mem_cons.1 ha with rfl | ha
      · exact .inl (if_pos rfl)
      · exact .inr ⟨a, ha, rfl⟩

theorem gone_news (rest fresh : Objects α) (listed : List α) :
    (takeOver rest fresh listed).1.flatMap Change.gone = [] := by
  induction listed generalizing rest fresh with
  | nil => rfl
  | cons b bs ih =>
    simp only [takeOver, List.flatMap_append, ih, List.append_nil]
    split
    · rfl
    · split <;> rfl

/-- A list that has all that is in the cache tells of no deletion. -/
theorem gone_relist {listed : List α}
    (h : ∀ k a, cache.find? k = some a → ∃ b ∈ listed, Resource.key b = k) :
    (cache.relist listed).1.flatMap Change.gone = [] := by
  have hleft : (takeOver cache .empty listed).2.1 = .empty := by
    refine Table.ext_find fun k => left_eq_none ?_
    cases hk : cache.find? k with
    | none => exact .inl rfl
    | some a => exact .inr (h k a hk)
  change ((takeOver cache .empty listed).1 ++
    (takeOver cache .empty listed).2.1.values.map Change.deleted).flatMap Change.gone = []
  rw [List.flatMap_append, gone_news, hleft]
  rfl

variable {s : Store α} {c : Change α}

/-- A cache that is the store before a change becomes the store after it, and tells of the object
that goes. -/
theorem apply_read (hs : s.Sound) (hc : s.Admits c) :
    (Objects.apply s.objects c).2 = (s.commit c).objects ∧
      (Objects.apply s.objects c).1.flatMap Change.gone = c.gone := by
  refine ⟨Table.ext_find fun k => find?_apply_of_eq hs hc rfl, ?_⟩
  cases c with
  | added a => exact gone_store _ a
  | updated old a => exact gone_store _ a
  | deleted a =>
    have hstored : s.objects.find? (Resource.key a) = some a := hc.before
    simp [apply, remove, hstored, Change.gone]

/-- A cache that has what a change has left, or something newer, drops it. -/
theorem apply_stale {a b : α} (hafter : c.after? = some a)
    (hb : cache.find? (Resource.key a) = some b) (hle : Resource.version a ≤ Resource.version b) :
    cache.apply c = ([], cache) := by
  cases c with
  | added a' =>
    obtain rfl := Option.some.inj hafter
    simp [apply, store, hb, hle]
  | updated old a' =>
    obtain rfl := Option.some.inj hafter
    simp [apply, store, hb, hle]
  | deleted a' => cases hafter

end Objects

/-! ## Abreast -/

namespace Mirror

variable {m m' : Mirror α} {told : List (Change α)} {cursor n : Nat}

/-- The objects whose deletions the informer has still to read of. -/
def unread (m : Mirror α) : List α :=
  match m.shelf.informer.phase with
  | .following cursor => (m.log.drop cursor).flatMap Change.gone
  | _ => []

/-- The cache is the store after `n` changes. The informer has read `cursor` of them, and all
that tell of a deletion. -/
structure AbreastAt (m : Mirror α) (cursor n : Nat) : Prop where
  phase : m.shelf.informer.phase = .following cursor
  cursor_le : cursor ≤ n
  le : n ≤ m.log.length
  cache : m.shelf.informer.cache = (Store.past m.log n).objects
  keeps : Store.Keeps m.log cursor n
  errand : ∀ e, m.errand = some e → cursor ≤ e.cursor
  /-- What was listed is the store at a later moment, before which nothing is deleted either. -/
  listed : ∀ listed, m.listed = some listed → ∃ e k, m.errand = some e ∧
    e.cursor ≤ k ∧ n ≤ k ∧ k ≤ m.log.length ∧ listed = (Store.past m.log k).objects.values ∧
      Store.Keeps m.log cursor k

/-- The cache is the store as it was at some moment, and all deletions before were told. -/
def Abreast (m : Mirror α) : Prop := ∃ cursor n, m.AbreastAt cursor n

theorem AbreastAt.unread (h : m.AbreastAt cursor n) :
    m.unread = (m.log.drop cursor).flatMap Change.gone := by
  rw [Mirror.unread, h.phase]

namespace Abreast

/-- A mirror whose store has had more changes has the more deletions to read of. -/
theorem grown {more : List (Change α)} (h : m.Abreast)
    (hinformer : m'.shelf.informer = m.shelf.informer) (herrand : m'.errand = m.errand)
    (hlisted : m'.listed = m.listed) (hlog : m'.log = m.log ++ more) :
    m'.Abreast ∧ m'.unread = m.unread ++ more.flatMap Change.gone := by
  obtain ⟨cursor, n, h⟩ := h
  have hlength : m.log.length ≤ m'.log.length := by
    rw [hlog, List.length_append]
    exact Nat.le_add_right _ _
  have hat : m'.AbreastAt cursor n := by
    constructor
    case phase => rw [hinformer, h.phase]
    case cursor_le => exact h.cursor_le
    case le => exact h.le.trans hlength
    case cache => rw [hinformer, h.cache, hlog, Store.past_append _ h.le]
    case keeps => exact hlog ▸ h.keeps.append h.le
    case errand => exact fun e he => h.errand e (herrand ▸ he)
    case listed =>
      intro listed hl
      obtain ⟨e, k, he, hek, hnk, hk, heq, hkeeps⟩ := h.listed listed (hlisted ▸ hl)
      refine ⟨e, k, herrand.trans he, hek, hnk, hk.trans hlength, ?_, ?_⟩
      · rw [hlog, Store.past_append _ hk, heq]
      · exact hlog ▸ hkeeps.append hk
  refine ⟨⟨cursor, n, hat⟩, ?_⟩
  rw [hat.unread, h.unread, hlog, List.drop_append_of_le_length (h.cursor_le.trans h.le),
    List.flatMap_append]

end Abreast

/-- Who reads has listed nothing, if nothing was listed before. -/
theorem read_ne_list (h : m.listed = none) : m.read ≠ m.list := by
  intro heq
  have hlisted : m.listed = some (m.shelf.store.objects.list none .everything) :=
    congrArg Mirror.listed heq
  rw [h] at hlisted
  cases hlisted

namespace AbreastAt

/-- The informer lists the store when there are no deletions left to read of. -/
theorem list (h : m.AbreastAt cursor n) (hm : m.Coherent) (hsome : m.errand.isSome)
    (hread : m.unread = []) : m.list.AbreastAt cursor n := by
  obtain ⟨e, he⟩ := Option.isSome_iff_exists.1 hsome
  refine ⟨h.phase, h.cursor_le, h.le, h.cache, h.keeps, h.errand, fun listed hl => ?_⟩
  obtain rfl : m.shelf.store.objects.list none .everything = listed := Option.some.inj hl
  refine ⟨e, m.log.length, he, (hm.errand e he).2, h.le, le_rfl, ?_, ?_⟩
  · rw [Objects.list_everything]
    exact congrArg (fun s => s.objects.values) hm.records.past_eq.symm
  · exact .of_drop (h.unread ▸ hread) _

/-- A list in which nothing is missing tells of no deletion. -/
theorem takeOver (h : m.AbreastAt cursor n) (hm : m.Coherent) {e : Errand α} {listed : List α}
    (herrand : m.errand = some e) (hlisted : m.listed = some listed) :
    m.takeOver.Abreast ∧
      (e.told m.shelf.informer listed).flatMap Change.gone ++ m.takeOver.unread = m.unread := by
  obtain ⟨e', k, he', hek, hnk, hk, rfl, hkeeps⟩ := h.listed listed hlisted
  obtain rfl : e' = e := Option.some.inj (he'.symm.trans herrand)
  have hcursor := h.errand e' herrand
  have hsuits := (hm.errand e' herrand).1
  have hsound := hm.records.legal.sound hk
  have hmove : m.takeOver = ⟨{ m.shelf with informer :=
      ⟨(Store.past m.log k).objects, true, .following e'.cursor⟩ }, none, none⟩ := by
    simp only [Mirror.takeOver, herrand, hlisted]
    rw [e'.takeOver_eq hsuits, Objects.relist_store hsound]
  have hat : m.takeOver.AbreastAt e'.cursor k := by
    rw [hmove]
    exact ⟨rfl, hek, hk, rfl, hkeeps.mono hcursor le_rfl, fun _ he => (by cases he),
      fun _ hl => (by cases hl)⟩
  have htold : (e'.told m.shelf.informer (Store.past m.log k).objects.values).flatMap
      Change.gone = [] := by
    rw [e'.told_eq hsuits, h.cache]
    refine Objects.gone_relist fun j a ha => ?_
    obtain ⟨b, hb, -⟩ := Store.exists_newer hm.records.legal hnk hk
      (hkeeps.mono h.cursor_le le_rfl) ha
    exact ⟨b, List.mem_map_of_mem (f := Prod.snd) (Table.find?_eq_some_iff.1 hb), hsound.key_eq hb⟩
  refine ⟨⟨_, _, hat⟩, ?_⟩
  rw [htold, hat.unread, h.unread, hmove, List.nil_append]
  exact ((hkeeps.mono le_rfl hek).drop hcursor).symm

/-- What is read next changes the cache to the store after it, unless it is in the cache. -/
theorem item (h : m.AbreastAt cursor n) (hm : m.Coherent) {c : Change α}
    (hc : m.log[cursor]? = some c) :
    ∃ k, cursor + 1 ≤ k ∧ k ≤ m.log.length ∧
      (m.shelf.informer.cache.apply c).2 = (Store.past m.log k).objects ∧
      (m.shelf.informer.cache.apply c).1.flatMap Change.gone = c.gone ∧
      Store.Keeps m.log (cursor + 1) k := by
  have hlt : cursor < m.log.length := (List.getElem?_eq_some_iff.1 hc).1
  have hadmits := hm.records.legal cursor c hc
  rw [h.cache]
  rcases Nat.eq_or_lt_of_le h.cursor_le with rfl | hbefore
  · obtain ⟨hcache, hgone⟩ := Objects.apply_read (hm.records.legal.sound h.le) hadmits
    refine ⟨cursor + 1, le_rfl, hlt, ?_, hgone, fun i _ hi him => by omega⟩
    rw [hcache, Store.past_succ hc]
  · have hgone := h.keeps cursor c le_rfl hbefore hc
    obtain ⟨a, hafter⟩ : ∃ a, c.after? = some a := by
      cases c with
      | deleted a => cases hgone
      | added a => exact ⟨a, rfl⟩
      | updated old a => exact ⟨a, rfl⟩
    have hthen : (Store.past m.log (cursor + 1)).get? (Resource.key a) = some a := by
      rw [Store.past_succ hc, Store.get?_commit, Change.object_eq_of_after? hafter, if_pos rfl,
        hafter]
    have hrest := h.keeps.mono (Nat.le_succ cursor) le_rfl
    obtain ⟨b, hb, hle⟩ := Store.exists_newer hm.records.legal hbefore h.le hrest hthen
    rw [Objects.apply_stale hafter hb hle]
    exact ⟨n, hbefore, h.le, rfl, hgone.symm, hrest⟩

/-- The informer reads what is next, if there is anything. -/
theorem read (h : m.AbreastAt cursor n) (hm : m.Coherent) (hnone : m.errand = none)
    (hlag : m.shelf.lags = false) (hopen : m.shelf.feed.closed = false) :
    m.read.Abreast ∧
      (m.shelf.informer.follow m.shelf.feed (.ok [])).1.flatMap Change.gone ++ m.read.unread =
        m.unread := by
  have hnot : ¬cursor < m.shelf.feed.oldest := by simpa [Shelf.lags, h.phase] using hlag
  have hread : m.read = { m with shelf := { m.shelf with
      informer := (m.shelf.informer.follow m.shelf.feed (.ok [])).2 } } := rfl
  cases hc : m.shelf.feed.log[cursor]? with
  | none =>
    have hfollow : m.shelf.informer.follow m.shelf.feed (.ok []) = ([], m.shelf.informer) := by
      simp [Informer.follow, h.phase, Feed.read, hnot, hc, hopen]
    rw [hread, hfollow]
    exact ⟨⟨cursor, n, h⟩, rfl⟩
  | some c =>
    have hlog : m.log[cursor]? = some c := by rw [Mirror.log, Array.getElem?_toList, hc]
    have hfollow : m.shelf.informer.follow m.shelf.feed (.ok []) =
        ((m.shelf.informer.cache.apply c).1, { m.shelf.informer with
          cache := (m.shelf.informer.cache.apply c).2, phase := .following (cursor + 1) }) := by
      simp [Informer.follow, h.phase, Feed.read, hnot, hc]
    obtain ⟨k, hcursor, hk, hcache, hgone, hkeeps⟩ := h.item hm hlog
    rw [hread, hfollow]
    refine ⟨⟨cursor + 1, k, rfl, hcursor, hk, hcache, hkeeps, fun e he => ?_,
      fun listed hl => absurd hl (hm.listed_eq_none hnone listed)⟩, ?_⟩
    · exact absurd (hnone.symm.trans he) (by simp)
    · obtain ⟨hlt, hget⟩ := List.getElem?_eq_some_iff.1 hlog
      rw [h.unread, List.drop_eq_getElem_cons hlt, List.flatMap_cons, hget, hgone]
      rfl

end AbreastAt

/-- Whatever an informer does, it tells of the deletions that it reads of, if it lists the store
only when there are none left to read of. -/
theorem Abreast.move (h : m.Abreast) (hm : m.Coherent) (hopen : m.shelf.feed.closed = false)
    (hmove : m.Move told m') (hlist : m' = m.list → m.unread = []) :
    m'.Abreast ∧ told.flatMap Change.gone ++ m'.unread = m.unread := by
  obtain ⟨cursor, n, h⟩ := h
  cases hmove with
  | subscribe hidle hnone => rw [h.phase] at hidle; cases hidle
  | list hsome =>
    exact ⟨⟨_, _, h.list hm hsome (hlist rfl)⟩, rfl⟩
  | takeOver e listed herrand hlisted => exact h.takeOver hm herrand hlisted
  | lag hnone hlag =>
    refine ⟨⟨cursor, n, h.phase, h.cursor_le, h.le, h.cache, h.keeps, fun e he => ?_,
      fun listed hl => absurd hl (hm.listed_eq_none hnone listed)⟩, rfl⟩
    cases he
    have hbehind : cursor < m.shelf.feed.oldest := by simpa [Shelf.lags, h.phase] using hlag
    exact hbehind.le
  | read hnone hlag => exact h.read hm hnone hlag hopen

end Mirror

end GameFleet
