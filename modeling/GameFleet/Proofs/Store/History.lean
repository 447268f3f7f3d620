import GameFleet.Store.Basic
import Mathlib.Data.Nat.Init
import Mathlib.Order.Nat

/-!
# The history of a store

Each write to a store makes a `Change`, and the changes alone say what the store holds :
`Store.commit` is the store after one of them, and `Store.past` the store after the first
so many of a log that began when the store was empty.

The log of a store is `Legal` : every change was admitted by the store as it was then
(`Store.Records`). The version of a store counts its changes, so an object is newer than
all that was stored before the change that stored it (`Store.lt_version_of_changed`), and
an object with the key and version of one that was stored before is that object, not
written since (`Store.unchanged_of_version_eq`). This holds across deletions too, since
the count goes on when an object goes.
-/

namespace GameFleet

variable {α : Type}

/-! ## Changes -/

namespace Change

/-- What a change found under the key of its object. -/
def before? : Change α → Option α
  | .added _ => none
  | .updated old _ => some old
  | .deleted a => some a

/-- What a change left under the key of its object. -/
def after? : Change α → Option α
  | .added a => some a
  | .updated _ new => some new
  | .deleted _ => none

theorem object_eq_of_after? {c : Change α} {a : α} (h : c.after? = some a) : c.object = a := by
  cases c with
  | added b => exact Option.some.inj h
  | updated old new => exact Option.some.inj h
  | deleted b => cases h

end Change

variable [Resource α]

/-- The change leaves under the key what does not meet a condition, and has found nothing there that
does not. -/
def Change.Breaks (P : α → Prop) (k : Key) (c : Change α) : Prop :=
  ∃ a, c.after? = some a ∧ Resource.key a = k ∧ ¬P a ∧ ∀ old, c.before? = some old → P old

@[simp] theorem Resource.metadata_mapMeta (f : Meta → Meta) (a : α) :
    Resource.metadata (Resource.mapMeta f a) = f (Resource.metadata a) :=
  Resource.metadata_setMeta _ _

namespace Store

@[simp] theorem key_newborn (s : Store α) (birth : Birth) (a : α) :
    Resource.key (s.newborn birth a) = Resource.key a := by
  simp [Resource.key, newborn, Meta.key]

@[simp] theorem version_newborn (s : Store α) (birth : Birth) (a : α) :
    Resource.version (s.newborn birth a) = s.version + 1 := by
  simp [Resource.version, newborn]

@[simp] theorem key_successor (s : Store α) (old a : α) :
    Resource.key (s.successor old a) = Resource.key a := by
  simp [Resource.key, successor, Meta.key]

@[simp] theorem version_successor (s : Store α) (old a : α) :
    Resource.version (s.successor old a) = s.version + 1 := by
  simp [Resource.version, successor]

/-! ## One change -/

/-- The store after a change. -/
def commit (s : Store α) (c : Change α) : Store α where
  objects :=
    match c.after? with
    | some a => s.objects.insert (Resource.key a) a
    | none => s.objects.erase (Resource.key c.object)
  version := s.version + 1

@[simp] theorem version_commit (s : Store α) (c : Change α) :
    (s.commit c).version = s.version + 1 :=
  rfl

theorem get?_commit (s : Store α) (c : Change α) (k : Key) :
    (s.commit c).get? k = if Resource.key c.object = k then c.after? else s.get? k := by
  cases c with
  | added a => exact Table.find?_insert _ _ _ _
  | updated old new => exact Table.find?_insert _ _ _ _
  | deleted a => exact Table.find?_erase _ _ _

/-- A change that a write to the store can make : it has found what the store holds, and
what it leaves has the number of the write. -/
structure Admits (s : Store α) (c : Change α) : Prop where
  before : s.get? (Resource.key c.object) = c.before?
  version : ∀ a, c.after? = some a → Resource.version a = s.version + 1

/-- Objects are under their own keys, and none is newer than the last write. -/
structure Sound (s : Store α) : Prop where
  key_eq : ∀ {k a}, s.get? k = some a → Resource.key a = k
  version_le : ∀ {k a}, s.get? k = some a → Resource.version a ≤ s.version

theorem sound_empty : (empty : Store α).Sound :=
  ⟨fun h => by simp [empty, get?] at h, fun h => by simp [empty, get?] at h⟩

theorem Sound.commit {s : Store α} (h : s.Sound) {c : Change α} (hc : s.Admits c) :
    (s.commit c).Sound := by
  refine ⟨fun {k a} hget => ?_, fun {k a} hget => ?_⟩
  · rw [get?_commit] at hget
    split at hget
    · next hk => rw [← Change.object_eq_of_after? hget, hk]
    · exact h.key_eq hget
  · rw [get?_commit] at hget
    split at hget
    · exact (hc.version a hget).le
    · exact (h.version_le hget).trans (Nat.le_succ _)

/-! ## Writes -/

theorem create_eq_ok {s t : Store α} {birth : Birth} {a : α} {c : Change α}
    (h : s.create birth a = .ok (c, t)) :
    s.get? (Resource.key a) = none ∧ c = .added (s.newborn birth a) ∧ t = s.commit c := by
  simp only [create] at h
  split at h
  · cases h
  · next hnot =>
    cases h
    refine ⟨by simpa [Table.contains, get?] using hnot, rfl, ?_⟩
    simp [Store.commit, Change.after?]

theorem update_eq_ok {s t : Store α} {a : α} {c : Change α} (h : s.update a = .ok (c, t)) :
    ∃ old, s.get? (Resource.key a) = some old ∧ Resource.version old = Resource.version a ∧
      c = .updated old (s.successor old a) ∧ t = s.commit c := by
  simp only [update] at h
  split at h
  · cases h
  · next old hold =>
    split at h
    · next hversion =>
      cases h
      refine ⟨old, hold, hversion, rfl, ?_⟩
      simp [Store.commit, Change.after?]
    · cases h

theorem delete_eq_ok {s t : Store α} (hs : s.Sound) {k : Key} {c : Change α}
    (h : s.delete k = .ok (c, t)) :
    ∃ old, s.get? k = some old ∧ c = .deleted old ∧ t = s.commit c := by
  simp only [delete] at h
  split at h
  · cases h
  · next old hold =>
    cases h
    refine ⟨old, hold, rfl, ?_⟩
    simp [Store.commit, Change.after?, Change.object, hs.key_eq hold]

theorem create_eq {s : Store α} {birth : Birth} {a : α} (h : s.get? (Resource.key a) = none) :
    s.create birth a = .ok (.added (s.newborn birth a), s.commit (.added (s.newborn birth a))) := by
  have hnot : s.objects.contains (Resource.key a) = false := by
    rw [Table.contains, ← get?, h]
    rfl
  simp [create, hnot, Store.commit, Change.after?]

theorem update_eq {s : Store α} {old a : α} (h : s.get? (Resource.key a) = some old)
    (hversion : Resource.version a = Resource.version old) :
    s.update a =
      .ok (.updated old (s.successor old a), s.commit (.updated old (s.successor old a))) := by
  simp [update, h, hversion, Store.commit, Change.after?]

theorem delete_eq {s : Store α} (hs : s.Sound) {k : Key} {old : α} (h : s.get? k = some old) :
    s.delete k = .ok (.deleted old, s.commit (.deleted old)) := by
  simp [delete, h, Store.commit, Change.after?, Change.object, hs.key_eq h]

theorem admits_of_create {s t : Store α} {birth : Birth} {a : α} {c : Change α}
    (h : s.create birth a = .ok (c, t)) : s.Admits c := by
  obtain ⟨hnone, rfl, -⟩ := create_eq_ok h
  refine ⟨by simpa [Change.object, Change.before?] using hnone, fun b hb => ?_⟩
  cases hb
  exact version_newborn s birth a

theorem admits_of_update {s t : Store α} {a : α} {c : Change α} (h : s.update a = .ok (c, t)) :
    s.Admits c := by
  obtain ⟨old, hold, -, rfl, -⟩ := update_eq_ok h
  refine ⟨by simpa [Change.object, Change.before?] using hold, fun b hb => ?_⟩
  cases hb
  exact version_successor s old a

theorem admits_of_delete {s t : Store α} (hs : s.Sound) {k : Key} {c : Change α}
    (h : s.delete k = .ok (c, t)) : s.Admits c := by
  obtain ⟨old, hold, rfl, -⟩ := delete_eq_ok hs h
  refine ⟨?_, fun b hb => by cases hb⟩
  rw [Change.object, hs.key_eq hold]
  exact hold

/-! ## Logs -/

/-- The store after the first `n` changes of a log. -/
def past (log : List (Change α)) (n : Nat) : Store α := (log.take n).foldl commit empty

theorem past_succ {log : List (Change α)} {n : Nat} {c : Change α} (h : log[n]? = some c) :
    past log (n + 1) = (past log n).commit c := by
  rw [past, List.take_add_one, h, Option.toList_some, List.foldl_append]
  rfl

theorem past_append {log : List (Change α)} (more : List (Change α)) {n : Nat}
    (h : n ≤ log.length) : past (log ++ more) n = past log n := by
  rw [past, List.take_append_of_le_length h, past]

theorem past_snoc (log : List (Change α)) (c : Change α) :
    past (log ++ [c]) (log ++ [c]).length = (past log log.length).commit c := by
  rw [List.length_append, List.length_singleton, past_succ (c := c) (by simp),
    past_append _ le_rfl]

theorem version_past {log : List (Change α)} {n : Nat} (h : n ≤ log.length) :
    (past log n).version = n := by
  induction n with
  | zero => rfl
  | succ n ih =>
    rw [past_succ (List.getElem?_eq_getElem (by omega : n < log.length)), version_commit,
      ih (by omega)]

/-- Every change of a log was admitted by the store as it was then. -/
def Legal (log : List (Change α)) : Prop :=
  ∀ n c, log[n]? = some c → (past log n).Admits c

theorem legal_nil : Legal ([] : List (Change α)) := fun _ _ h => by simp at h

theorem Legal.snoc {log : List (Change α)} (h : Legal log) {c : Change α}
    (hc : (past log log.length).Admits c) : Legal (log ++ [c]) := by
  intro n d hd
  rcases Nat.lt_trichotomy n log.length with hlt | rfl | hgt
  · rw [past_append _ hlt.le]
    exact h n d (by rwa [List.getElem?_append_left hlt] at hd)
  · rw [past_append _ le_rfl]
    obtain rfl : c = d := by simpa using hd
    exact hc
  · rw [List.getElem?_eq_none (by simp; omega)] at hd
    cases hd

theorem Legal.sound {log : List (Change α)} (h : Legal log) {n : Nat} (hn : n ≤ log.length) :
    (past log n).Sound := by
  induction n with
  | zero => exact sound_empty
  | succ n ih =>
    have hget := List.getElem?_eq_getElem (by omega : n < log.length)
    rw [past_succ hget]
    exact (ih (by omega)).commit (h n _ hget)

/-- A log has a change about a key between two moments. -/
def Changed (log : List (Change α)) (k : Key) (n m : Nat) : Prop :=
  ∃ i c, n ≤ i ∧ i < m ∧ log[i]? = some c ∧ Resource.key c.object = k

theorem changed_of_append {log more : List (Change α)} {k : Key} {n m : Nat}
    (hm : m ≤ log.length) (h : Changed (log ++ more) k n m) : Changed log k n m := by
  obtain ⟨i, c, hni, him, hc, hk⟩ := h
  exact ⟨i, c, hni, him, by rwa [List.getElem?_append_left (by omega)] at hc, hk⟩

theorem get?_past_of_unchanged {log : List (Change α)} {k : Key} {n m : Nat} (hnm : n ≤ m)
    (hm : m ≤ log.length) (h : ¬Changed log k n m) :
    (past log m).get? k = (past log n).get? k := by
  induction m, hnm using Nat.le_induction with
  | base => rfl
  | succ m hnm ih =>
    have hget := List.getElem?_eq_getElem (by omega : m < log.length)
    have hne : Resource.key log[m].object ≠ k := fun hk =>
      h ⟨m, _, hnm, Nat.lt_succ_self m, hget, hk⟩
    rw [past_succ hget, get?_commit, if_neg hne]
    refine ih (by omega) ?_
    rintro ⟨i, c, hni, him, hc, hk⟩
    exact h ⟨i, c, hni, by omega, hc, hk⟩

/-- What is stored under a key is newer than the store before a change about the key. -/
theorem lt_version_of_changed {log : List (Change α)} (h : Legal log) {k : Key} {n m : Nat}
    (hm : m ≤ log.length) (hch : Changed log k n m) {a : α}
    (ha : (past log m).get? k = some a) : n < Resource.version a := by
  induction m with
  | zero =>
    obtain ⟨i, -, -, hi, -⟩ := hch
    omega
  | succ m ih =>
    have hget := List.getElem?_eq_getElem (by omega : m < log.length)
    rw [past_succ hget, get?_commit] at ha
    obtain ⟨i, c, hni, him, hc, hk⟩ := hch
    split at ha
    · have hversion := (h m _ hget).version a ha
      rw [version_past (by omega)] at hversion
      omega
    · next hne =>
      -- the last change is about another key, so the change about `k` is an earlier one
      have him' : i ≠ m := by
        rintro rfl
        rw [hget] at hc
        cases hc
        exact hne hk
      exact ih (by omega) ⟨i, c, hni, by omega, hc, hk⟩ ha

/-- Objects under one key at two moments that have one version are one object, and the key
was not written in between. -/
theorem unchanged_of_version_eq {log : List (Change α)} (h : Legal log) {k : Key} {n m : Nat}
    (hnm : n ≤ m) (hm : m ≤ log.length) {a b : α} (ha : (past log n).get? k = some a)
    (hb : (past log m).get? k = some b) (hversion : Resource.version a = Resource.version b) :
    a = b ∧ ¬Changed log k n m := by
  have hch : ¬Changed log k n m := fun hch => by
    have hlt := lt_version_of_changed h hm hch hb
    have hle := (h.sound (hnm.trans hm)).version_le ha
    rw [version_past (hnm.trans hm)] at hle
    omega
  rw [get?_past_of_unchanged hnm hm hch, ha] at hb
  exact ⟨Option.some.inj hb, hch⟩

/-! ## Conditions on what is stored -/

/-- What is stored under the key meets a condition. -/
def HoldsAt (s : Store α) (P : α → Prop) (k : Key) : Prop := ∀ a, s.get? k = some a → P a

theorem HoldsAt.commit {P : α → Prop} {k : Key} {s : Store α} {c : Change α} (h : s.HoldsAt P k)
    (hc : s.Admits c) (hkeeps : ¬c.Breaks P k) : (s.commit c).HoldsAt P k := by
  intro a ha
  rw [get?_commit] at ha
  split at ha
  · next hkey =>
    by_contra hnot
    have hobject := Change.object_eq_of_after? ha
    refine hkeeps ⟨a, ha, hobject ▸ hkey, hnot, fun old hold => h old ?_⟩
    rw [← hkey, hc.before, hold]
  · exact h a ha

/-- A condition that is met goes on to be, until a change breaks it. -/
theorem HoldsAt.past {P : α → Prop} {k : Key} {log : List (Change α)} {n m : Nat} (hlog : Legal log)
    (h : (Store.past log n).HoldsAt P k) (hnm : n ≤ m) (hm : m ≤ log.length)
    (hkeeps : ∀ i c, n ≤ i → log[i]? = some c → ¬c.Breaks P k) :
    (Store.past log m).HoldsAt P k := by
  induction m, hnm using Nat.le_induction with
  | base => exact h
  | succ m hnm ih =>
    have hget := List.getElem?_eq_getElem (by omega : m < log.length)
    rw [past_succ hget]
    exact (ih (by omega)).commit (hlog m _ hget) (hkeeps m _ hnm hget)

/-! ## The log of a store -/

/-- The log says all that happened to the store, and what the store holds. -/
structure Records (log : List (Change α)) (s : Store α) : Prop where
  legal : Legal log
  past_eq : past log log.length = s

theorem records_empty : Records [] (empty : Store α) := ⟨legal_nil, rfl⟩

namespace Records

variable {log : List (Change α)} {s t : Store α}

theorem sound (h : Records log s) : s.Sound := h.past_eq ▸ h.legal.sound le_rfl

theorem commit (h : Records log s) {c : Change α} (hc : s.Admits c) :
    Records (log ++ [c]) (s.commit c) where
  legal := h.legal.snoc (h.past_eq.symm ▸ hc)
  past_eq := by rw [past_snoc, h.past_eq]

theorem create (h : Records log s) {birth : Birth} {a : α} {c : Change α}
    (hw : s.create birth a = .ok (c, t)) : Records (log ++ [c]) t := by
  rw [(create_eq_ok hw).2.2]
  exact h.commit (admits_of_create hw)

theorem update (h : Records log s) {a : α} {c : Change α} (hw : s.update a = .ok (c, t)) :
    Records (log ++ [c]) t := by
  obtain ⟨_, _, _, _, rfl⟩ := update_eq_ok hw
  exact h.commit (admits_of_update hw)

theorem delete (h : Records log s) {k : Key} {c : Change α} (hw : s.delete k = .ok (c, t)) :
    Records (log ++ [c]) t := by
  obtain ⟨_, _, _, rfl⟩ := delete_eq_ok h.sound hw
  exact h.commit (admits_of_delete h.sound hw)

end Records

end Store

end GameFleet
