import GameFleet.Proofs.Plane.Household
import GameFleet.Proofs.Store.Replay
import GameFleet.Proofs.Table

/-!
# What an informer tells

An informer tells each of its handlers of the changes of its cache. It has two sources : a change
that it reads in the feed, and the difference between its cache and a list of the store. Both tell
of a history (`Objects.Leads`) : what is added was not there, what is updated was there as the
change says and is newer now, and what is deleted was there.

A change that is read is judged by the cache, so what is told of it fits the cache always. For a
list it matters that it is younger than all that is in the cache (`Mirror.Aged`) : then an object
that is listed with the version that the cache has is the cached one, and one with another version
is newer.

A `Herald` is a mirror with handlers that are told of the changes one after the other, while others
write to the store. `Herald.history_of_reachable` says that what a handler was told makes the cache
from nothing, if it is told of what it has still to be told of.
-/

open Relation

namespace GameFleet

variable {α : Type} [Resource α]

/-! ## Histories -/

/-- The change fits these objects : what is added is not there, what is updated is there as the
change says and becomes newer, and what is deleted is there and not newer. -/
def Change.FollowsOn (os : Objects α) : Change α → Prop
  | .added a => os.find? (Resource.key a) = none
  | .updated old new =>
    os.find? (Resource.key new) = some old ∧ Resource.version old < Resource.version new
  | .deleted a => ∃ old, os.find? (Resource.key a) = some old ∧
      Resource.version old ≤ Resource.version a

namespace Objects

/-- The changes lead from some objects to others, and each fits what those before it have made. -/
inductive Leads : Objects α → List (Change α) → Objects α → Prop where
  | nil (os : Objects α) : Leads os [] os
  | cons {os os' : Objects α} {c : Change α} {cs : List (Change α)} (hc : c.FollowsOn os)
    (h : Leads (os.heed c) cs os') : Leads os (c :: cs) os'

namespace Leads

variable {os os' os'' : Objects α} {c : Change α} {cs ds : List (Change α)}

theorem one (hc : c.FollowsOn os) : Leads os [c] (os.heed c) := .cons hc (.nil _)

theorem append (h : Leads os cs os') (h' : Leads os' ds os'') : Leads os (cs ++ ds) os'' := by
  induction h with
  | nil os => exact h'
  | cons hc _ ih => exact .cons hc (ih h')

theorem foldl_eq (h : Leads os cs os') : cs.foldl heed os = os' := by
  induction h with
  | nil os => rfl
  | cons hc _ ih => exact ih

theorem followsOn (h : Leads os cs os') {n : Nat} (hn : cs[n]? = some c) :
    c.FollowsOn ((cs.take n).foldl heed os) := by
  induction h generalizing n with
  | nil os => simp at hn
  | cons hc _ ih =>
    cases n with
    | zero =>
      cases hn
      exact hc
    | succ n => exact ih hn

end Leads

/-! ## Changes that are read -/

theorem leads_store (cache : Objects α) (a : α) : cache.Leads (cache.store a).1 (cache.store a).2 := by
  simp only [store]
  split
  · next hnone => exact .one (c := .added a) hnone
  · next old hold =>
    split
    · exact .nil cache
    · next hnot => exact .one (c := .updated old a) ⟨hold, Nat.lt_of_not_le hnot⟩

theorem leads_remove (cache : Objects α) (a : α) :
    cache.Leads (cache.remove a).1 (cache.remove a).2 := by
  simp only [remove]
  split
  · exact .nil cache
  · next old hold =>
    split
    · next hle => exact .one (c := .deleted a) ⟨old, hold, hle⟩
    · exact .nil cache

/-- What is told of a change that is read leads from the cache to the cache with the change. -/
theorem leads_apply (cache : Objects α) (c : Change α) :
    cache.Leads (cache.apply c).1 (cache.apply c).2 := by
  cases c with
  | added a => exact cache.leads_store a
  | updated _ a => exact cache.leads_store a
  | deleted a => exact cache.leads_remove a

/-! ## Lists -/

theorem Keyed.heed {os : Objects α} (h : os.Keyed) (c : Change α) : (os.heed c).Keyed := by
  cases c with
  | added a => exact h.insert a
  | updated old a => exact h.insert a
  | deleted a =>
    intro k b hfind
    rw [Objects.heed, Table.find?_erase] at hfind
    split at hfind
    · cases hfind
    · exact h k b hfind

theorem Leads.keyed {os os' : Objects α} {cs : List (Change α)} (h : os.Leads cs os')
    (hkeyed : os.Keyed) : os'.Keyed := by
  induction h with
  | nil os => exact hkeyed
  | cons _ _ ih => exact ih (hkeyed.heed _)

theorem Keyed.map_key_values {os : Objects α} (h : os.Keyed) :
    os.values.map Resource.key = os.keys := by
  rw [Table.values, Table.keys, List.map_map]
  refine List.map_congr_left fun e he => ?_
  exact h e.1 e.2 (Table.find?_eq_some_iff.2 he)

/-- Of some objects, these are taken over already and those are left of the cache. -/
structure Parted (os rest fresh : Objects α) : Prop where
  find? : ∀ k, os.find? k = (fresh.find? k).or (rest.find? k)
  apart : ∀ {k a}, rest.find? k = some a → fresh.find? k = none

/-- An object that is taken over makes the next parting. -/
theorem Parted.next {os os' rest fresh : Objects α} (h : os.Parted rest fresh) {a : α}
    (hfind : ∀ k, os'.find? k = if Resource.key a = k then some a else os.find? k) :
    os'.Parted (rest.erase (Resource.key a)) (fresh.insert (Resource.key a) a) where
  find? k := by
    rw [hfind, Table.find?_insert, Table.find?_erase]
    split
    · rfl
    · exact h.find? k
  apart {k b} hb := by
    rw [Table.find?_erase] at hb
    rw [Table.find?_insert]
    split at hb
    · cases hb
    · next hne => rw [if_neg hne, h.apart hb]

/-- What is told while a list is taken over leads from the cache to what is taken over and
what is left, if no listed object is older than the cached one or differs from it with the
same version. -/
theorem leads_takeOver {listed : List α} {os rest fresh : Objects α} (hparted : os.Parted rest fresh)
    (hnew : ∀ a ∈ listed, fresh.find? (Resource.key a) = none)
    (hnodup : (listed.map Resource.key).Nodup)
    (hseen : ∀ a ∈ listed, ∀ old, rest.find? (Resource.key a) = some old →
      old = a ∨ Resource.version old < Resource.version a) :
    ∃ os', os.Leads (takeOver rest fresh listed).1 os' ∧
      os'.Parted (takeOver rest fresh listed).2.1 (takeOver rest fresh listed).2.2 := by
  induction listed generalizing os rest fresh with
  | nil => exact ⟨os, .nil os, hparted⟩
  | cons a as ih =>
    obtain ⟨hfirst, hlater⟩ := List.nodup_cons.1 hnodup
    have hnew' : ∀ b ∈ as, (fresh.insert (Resource.key a) a).find? (Resource.key b) = none := by
      intro b hb
      have hne : Resource.key a ≠ Resource.key b := fun heq =>
        hfirst (heq ▸ List.mem_map_of_mem hb)
      rw [Table.find?_insert, if_neg hne]
      exact hnew b (List.mem_cons_of_mem a hb)
    have hseen' : ∀ b ∈ as, ∀ old, (rest.erase (Resource.key a)).find? (Resource.key b) = some old →
        old = b ∨ Resource.version old < Resource.version b := by
      intro b hb old hold
      rw [Table.find?_erase] at hold
      split at hold
      · cases hold
      · exact hseen b (List.mem_cons_of_mem a hb) old hold
    -- nothing was taken over under the key of `a`, so the cache decides what is told of it
    have hos : os.find? (Resource.key a) = rest.find? (Resource.key a) := by
      rw [hparted.find?, hnew a List.mem_cons_self, Option.none_or]
    rw [takeOver]
    cases hrest : rest.find? (Resource.key a) with
    | none =>
      obtain ⟨os', hleads, hparted'⟩ :=
        ih (hparted.next (Table.find?_insert os (Resource.key a) · a)) hnew' hlater hseen'
      exact ⟨os', .cons (c := .added a) (hos.trans hrest) hleads, hparted'⟩
    | some old =>
      rcases hseen a List.mem_cons_self old hrest with rfl | hlt
      · have hsame : ∀ k, os.find? k = if Resource.key old = k then some old else os.find? k := by
          intro k
          split
          · next hk => rw [← hk, hos, hrest]
          · rfl
        obtain ⟨os', hleads, hparted'⟩ := ih (hparted.next hsame) hnew' hlater hseen'
        exact ⟨os', by simpa using hleads, hparted'⟩
      · obtain ⟨os', hleads, hparted'⟩ :=
          ih (hparted.next (Table.find?_insert os (Resource.key a) · a)) hnew' hlater hseen'
        refine ⟨os', ?_, hparted'⟩
        simp only [hlt.ne, if_false]
        exact .cons (c := .updated old a) ⟨hos.trans hrest, hlt⟩ hleads

theorem find?_foldl_erase (gone : List α) (os : Objects α) (k : Key) :
    (gone.foldl (fun os a => os.erase (Resource.key a)) os).find? k =
      if k ∈ gone.map Resource.key then none else os.find? k := by
  induction gone generalizing os with
  | nil => simp
  | cons a as ih =>
    rw [List.foldl_cons, ih, Table.find?_erase]
    by_cases hk : k = Resource.key a
    · simp [hk]
    · simp [hk, Ne.symm hk]

theorem leads_deleted {gone : List α} {os : Objects α} (hnodup : (gone.map Resource.key).Nodup)
    (hthere : ∀ a ∈ gone, os.find? (Resource.key a) = some a) :
    os.Leads (gone.map .deleted) (gone.foldl (fun os a => os.erase (Resource.key a)) os) := by
  induction gone generalizing os with
  | nil => exact .nil os
  | cons a as ih =>
    obtain ⟨hfirst, hlater⟩ := List.nodup_cons.1 hnodup
    refine .cons (c := .deleted a) ⟨a, hthere a List.mem_cons_self, le_rfl⟩ (ih hlater ?_)
    intro b hb
    have hne : Resource.key a ≠ Resource.key b := fun heq => hfirst (heq ▸ List.mem_map_of_mem hb)
    rw [heed, Table.find?_erase, if_neg hne]
    exact hthere b (List.mem_cons_of_mem a hb)

/-- What is told of a list leads from the cache to the list. -/
theorem leads_relist {cache : Objects α} {listed : List α} (hkeyed : cache.Keyed)
    (hnodup : (listed.map Resource.key).Nodup)
    (hseen : ∀ a ∈ listed, ∀ old, cache.find? (Resource.key a) = some old →
      old = a ∨ Resource.version old < Resource.version a) :
    cache.Leads (cache.relist listed).1 (cache.relist listed).2 := by
  have hparted : cache.Parted cache .empty := ⟨fun k => rfl, fun _ => rfl⟩
  obtain ⟨os, hleads, hos⟩ := leads_takeOver hparted (fun _ _ => rfl) hnodup hseen
  rw [relist]
  generalize takeOver cache .empty listed = taken at hleads hos ⊢
  obtain ⟨changes, left, fresh⟩ := taken
  simp only at hleads hos ⊢
  -- what is left is in the cache still, each under its key
  have hleft : ∀ {k a}, left.find? k = some a → os.find? k = some a := fun ha => by
    rw [hos.find?, hos.apart ha, Option.none_or, ha]
  have hkeyed' : left.Keyed := fun k a ha => hleads.keyed hkeyed k a (hleft ha)
  have hthere : ∀ a ∈ left.values, os.find? (Resource.key a) = some a := by
    intro a ha
    obtain ⟨⟨k, _⟩, he, rfl⟩ := List.mem_map.1 ha
    have hfind := Table.find?_eq_some_iff.2 he
    rw [hkeyed' k _ hfind]
    exact hleft hfind
  have hgone := leads_deleted (hkeyed'.map_key_values ▸ left.nodup_keys) hthere
  have hfresh : left.values.foldl (fun os a => os.erase (Resource.key a)) os = fresh := by
    refine Table.ext_find fun k => ?_
    rw [find?_foldl_erase, hkeyed'.map_key_values, hos.find?]
    cases hfind : left.find? k with
    | none =>
      rw [if_neg (by simp [Table.mem_keys, hfind]), Option.or_none]
    | some a =>
      rw [if_pos (by simp [Table.mem_keys, hfind]), hos.apart hfind]
  exact hleads.append (hfresh ▸ hgone)

end Objects

/-! ## Caches that are older than a list -/

/-- What is in the objects was stored at some moment up to one. -/
def Precedes (log : List (Change α)) (n : Nat) (os : Objects α) : Prop :=
  ∀ k a, os.find? k = some a → ∃ m ≤ n, (Store.past log m).get? k = some a

namespace Precedes

variable {log : List (Change α)} {n : Nat} {os : Objects α}

theorem mono (h : Precedes log n os) {m : Nat} (hnm : n ≤ m) : Precedes log m os := fun k a ha =>
  (h k a ha).imp fun _ hi => ⟨hi.1.trans hnm, hi.2⟩

theorem append (h : Precedes log n os) (hn : n ≤ log.length) (more : List (Change α)) :
    Precedes (log ++ more) n os := fun k a ha =>
  (h k a ha).imp fun _ hi => ⟨hi.1, by rw [Store.past_append _ (hi.1.trans hn), hi.2]⟩

/-- What was stored at a moment is what was stored before it under the key, or newer. -/
theorem seen (h : Precedes log n os) (hlog : Store.Legal log) (hn : n ≤ log.length) {k : Key}
    {old a : α} (hold : os.find? k = some old) (ha : (Store.past log n).get? k = some a) :
    old = a ∨ Resource.version old < Resource.version a := by
  obtain ⟨m, hmn, hm⟩ := h k old hold
  by_cases hch : Store.Changed log k m n
  · have hlt := Store.lt_version_of_changed hlog hn hch ha
    have hle := (hlog.sound (hmn.trans hn)).version_le hm
    rw [Store.version_past (hmn.trans hn)] at hle
    exact .inr (hle.trans_lt hlt)
  · rw [Store.get?_past_of_unchanged hmn hn hch, hm] at ha
    exact .inl (Option.some.inj ha)

/-- A list of the store at a moment tells of a history that leads to it from what was stored
before. -/
theorem leads_relist (h : Precedes log n os) (hkeyed : os.Keyed) (hlog : Store.Legal log)
    (hn : n ≤ log.length) :
    let listed := (Store.past log n).objects.values
    os.Leads (os.relist listed).1 (os.relist listed).2 := by
  have hsound := hlog.sound hn
  have hpast : (Store.past log n).objects.Keyed := fun k a ha => hsound.key_eq ha
  refine Objects.leads_relist hkeyed ?_ fun a ha old hold => ?_
  · rw [hpast.map_key_values]
    exact Table.nodup_keys _
  · obtain ⟨⟨k, a⟩, he, rfl⟩ := List.mem_map.1 ha
    have hfind := Table.find?_eq_some_iff.2 he
    rw [hpast k a hfind] at hold
    exact h.seen hlog hn hold hfind

end Precedes

namespace Mirror

variable {m m' : Mirror α} {told : List (Change α)}

/-- What is in the cache was stored, and it was so before the store was listed. -/
structure Aged (m : Mirror α) : Prop where
  cache : Precedes m.log m.log.length m.shelf.informer.cache
  listed : ∀ listed, m.listed = some listed → ∃ n ≤ m.log.length,
    listed = (Store.past m.log n).objects.values ∧ Precedes m.log n m.shelf.informer.cache

theorem aged_start (room : Nat) : (start room : Mirror α).Aged :=
  ⟨(fun _ _ h => by cases h), (fun _ h => by cases h)⟩

theorem Aged.wrote (h : m.Aged) (outcome : Except StoreError (Change α × Store α)) :
    (m.wrote outcome).Aged := by
  rcases outcome with cause | ⟨c, s⟩
  · exact h
  · have hlog : (m.wrote (.ok (c, s))).log = m.log ++ [c] := m.shelf.feed.toList_push c
    have hlen : (m.log ++ [c]).length = m.log.length + 1 := by simp
    refine ⟨?_, fun listed hl => ?_⟩
    · rw [hlog, hlen]
      exact (h.cache.append le_rfl [c]).mono (Nat.le_succ _)
    · obtain ⟨n, hn, heq, hprecedes⟩ := h.listed listed hl
      rw [hlog, hlen]
      exact ⟨n, hn.trans (Nat.le_succ _), by rw [Store.past_append _ hn, heq],
        hprecedes.append hn [c]⟩

theorem Move.aged (h : Move m told m') (hm : m.Coherent) (haged : m.Aged) : m'.Aged := by
  cases h with
  | subscribe hidle hnone => exact ⟨haged.cache, haged.listed⟩
  | list hsome =>
    refine ⟨haged.cache, fun listed hl => ⟨m.log.length, le_rfl, ?_, haged.cache⟩⟩
    obtain rfl : m.shelf.store.objects.list none .everything = listed := Option.some.inj hl
    rw [Objects.list_everything]
    exact congrArg (fun s => s.objects.values) hm.records.past_eq.symm
  | takeOver e listed herrand hlisted =>
    obtain ⟨n, hn, rfl, -⟩ := haged.listed listed hlisted
    simp only [Mirror.takeOver, herrand, hlisted]
    refine ⟨?_, fun listed hl => by cases hl⟩
    simp only [e.takeOver_eq (hm.errand e herrand).1]
    rw [Objects.relist_store (hm.records.legal.sound hn)]
    exact fun k a ha => ⟨n, hn, ha⟩
  | lag hnone hlag => exact ⟨haged.cache, haged.listed⟩
  | read hnone hlag =>
    refine ⟨?_, fun listed hl => absurd hl (hm.listed_eq_none hnone listed)⟩
    change Precedes m.log m.log.length m.read.shelf.informer.cache
    rcases read_cases hlag with ⟨cursor, c, hc, heq, -⟩ | ⟨heq, -⟩ <;> rw [heq]
    · intro k a ha
      rcases m.shelf.informer.cache.find?_apply_or (Store.past m.log cursor) c k with hnew | hkeep
      · have hlt : cursor < m.log.length := (List.getElem?_eq_some_iff.1 hc).1
        exact ⟨cursor + 1, hlt, by rw [Store.past_succ hc, ← hnew, ha]⟩
      · exact haged.cache k a (hkeep ▸ ha)
    · exact haged.cache

/-- What an informer tells by a move leads from the cache before to the cache after. -/
theorem Move.leads (h : Move m told m') (hm : m.Coherent)
    (hkeyed : m.shelf.informer.cache.Keyed) (haged : m.Aged) :
    m.shelf.informer.cache.Leads told m'.shelf.informer.cache := by
  cases h with
  | subscribe hidle hnone => exact .nil _
  | list hsome => exact .nil _
  | takeOver e listed herrand hlisted =>
    obtain ⟨n, hn, rfl, hprecedes⟩ := haged.listed listed hlisted
    have hsuits := (hm.errand e herrand).1
    simp only [Mirror.takeOver, herrand, hlisted]
    rw [e.told_eq hsuits, e.takeOver_eq hsuits]
    exact hprecedes.leads_relist hkeyed hm.records.legal hn
  | lag hnone hlag => exact .nil _
  | read hnone hlag =>
    rcases read_cases hlag with ⟨cursor, c, -, heq, htold⟩ | ⟨heq, htold⟩ <;> rw [heq, htold]
    · exact Objects.leads_apply _ c
    · exact .nil _

end Mirror

/-! ## Heralds -/

/-- A mirror whose informer has handlers. -/
structure Herald (α : Type) where
  mirror : Mirror α
  /-- How many handlers there are. They are told of a change in turn. -/
  handlers : Nat
  /-- Whom the informer has still to tell of which change. -/
  due : List (Nat × Change α)
  /-- Whom it has told of which change. -/
  told : List (Nat × Change α)

namespace Herald

/-- Every handler is told of the first change before any is told of the second. -/
def announce (handlers : Nat) (changes : List (Change α)) : List (Nat × Change α) :=
  changes.flatMap fun c => (List.range handlers).map (·, c)

/-- The changes that one handler is told of. -/
def addressed (i : Nat) (news : List (Nat × Change α)) : List (Change α) :=
  (news.filter (·.1 == i)).map Prod.snd

/-- The changes that a handler was told of, the oldest first. -/
def heard (h : Herald α) (i : Nat) : List (Change α) := addressed i h.told

/-- The changes of the cache that a handler was not told of yet. -/
def awaited (h : Herald α) (i : Nat) : List (Change α) := addressed i h.due

/-- What the informer has in its cache. -/
def cache (h : Herald α) : Objects α := h.mirror.shelf.informer.cache

def start (room handlers : Nat) : Herald α := ⟨.start room, handlers, [], []⟩

/-- The herald after a call of the store, which may have failed. -/
def written (h : Herald α) (call : StoreCall α) : Herald α :=
  { h with mirror := h.mirror.wrote (call.write h.mirror.shelf.store) }

/-- The herald after a move of its informer, of which nobody was told yet. -/
def moved (h : Herald α) (m : Mirror α) (changes : List (Change α)) : Herald α :=
  { h with mirror := m, due := announce h.handlers changes }

/-- The herald when one more handler was told of one more change. -/
def tellNext (h : Herald α) : Herald α :=
  match h.due with
  | [] => h
  | news :: later => { h with due := later, told := h.told ++ [news] }

/-- What clients and the informer can do next. The informer makes no move until its handlers
were told of the last one. -/
inductive Step : Herald α → Herald α → Prop where
  | write (h : Herald α) (call : StoreCall α) : Step h (h.written call)
  | move (h : Herald α) (m : Mirror α) (changes : List (Change α)) (hdue : h.due = [])
    (hmove : h.mirror.Move changes m) : Step h (h.moved m changes)
  | tell (h : Herald α) : Step h h.tellNext

/-- A herald that a run from an empty store leads to. -/
def Reachable (room handlers : Nat) (h : Herald α) : Prop :=
  ReflTransGen Step (start room handlers) h

omit [Resource α] in
theorem addressed_append (i : Nat) (news more : List (Nat × Change α)) :
    addressed i (news ++ more) = addressed i news ++ addressed i more := by
  simp [addressed]

omit [Resource α] in
theorem addressed_announce {i handlers : Nat} (hi : i < handlers) (changes : List (Change α)) :
    addressed i (announce handlers changes) = changes := by
  induction changes with
  | nil => rfl
  | cons c cs ih =>
    have hone : addressed i ((List.range handlers).map (·, c)) = [c] := by
      have hmem : i ∈ List.range handlers := List.mem_range.2 hi
      have hself : (List.range handlers).filter (· == i) = [i] := by
        rw [List.filter_beq, List.nodup_range.count, if_pos hmem]
        rfl
      rw [addressed, List.filter_map]
      change (((List.range handlers).filter (· == i)).map (·, c)).map Prod.snd = [c]
      rw [hself]
      rfl
    rw [announce, List.flatMap_cons, addressed_append, hone, ← announce, ih]
    rfl

variable {h h' : Herald α} {i : Nat}

theorem cache_written (call : StoreCall α) : (h.written call).cache = h.cache := by
  unfold cache written
  cases call.write h.mirror.shelf.store <;> rfl

omit [Resource α] in
theorem awaited_moved (hi : i < h.handlers) (m : Mirror α) (changes : List (Change α)) :
    (h.moved m changes).awaited i = changes :=
  addressed_announce hi changes

omit [Resource α] in
theorem heard_append_awaited_tellNext : h.tellNext.heard i ++ h.tellNext.awaited i = h.heard i ++ h.awaited i := by
  unfold tellNext
  split
  · rfl
  · next news later hdue =>
    rw [heard, heard, awaited, awaited, hdue, addressed_append, List.append_assoc,
      ← addressed_append]
    rfl

omit [Resource α] in
theorem handlers_tellNext : h.tellNext.handlers = h.handlers := by
  unfold tellNext
  split <;> rfl

omit [Resource α] in
theorem mirror_tellNext : h.tellNext.mirror = h.mirror := by
  unfold tellNext
  split <;> rfl

theorem Step.handlers_eq (hstep : Step h h') : h'.handlers = h.handlers := by
  cases hstep with
  | write call => rfl
  | move m changes hdue hmove => rfl
  | tell => exact handlers_tellNext

/-- What a handler was told of and what it has still to be told of makes the cache. -/
structure Kept (h : Herald α) : Prop where
  coherent : h.mirror.Coherent
  keyed : h.cache.Keyed
  aged : h.mirror.Aged
  history : ∀ i < h.handlers, Objects.Leads .empty (h.heard i ++ h.awaited i) h.cache

theorem kept_start (room handlers : Nat) : (start room handlers : Herald α).Kept :=
  ⟨Mirror.coherent_start room, Objects.keyed_empty, Mirror.aged_start room, fun _ _ => .nil _⟩

theorem Kept.written (hkept : h.Kept) (call : StoreCall α) : (h.written call).Kept := by
  refine ⟨?_, ?_, hkept.aged.wrote _, fun i hi => ?_⟩
  · cases call with
    | create birth a => exact hkept.coherent.step (.create h.mirror birth a)
    | update a => exact hkept.coherent.step (.update h.mirror a)
    | delete k => exact hkept.coherent.step (.delete h.mirror k)
  · rw [cache_written]
    exact hkept.keyed
  · rw [cache_written]
    exact hkept.history i hi

theorem Kept.moved (hkept : h.Kept) (hdue : h.due = []) {m : Mirror α} {changes : List (Change α)}
    (hmove : h.mirror.Move changes m) : (h.moved m changes).Kept := by
  refine ⟨hkept.coherent.step hmove.step, hmove.keyed hkept.coherent hkept.keyed,
    hmove.aged hkept.coherent hkept.aged, fun i hi => ?_⟩
  have hheard : Objects.Leads .empty (h.heard i) h.cache := by
    simpa [awaited, hdue, addressed] using hkept.history i hi
  rw [awaited_moved (h := h) hi]
  exact hheard.append (hmove.leads hkept.coherent hkept.keyed hkept.aged)

theorem Kept.tellNext (hkept : h.Kept) : h.tellNext.Kept := by
  constructor
  case history =>
    intro i hi
    rw [heard_append_awaited_tellNext, cache, mirror_tellNext]
    exact hkept.history i (handlers_tellNext ▸ hi)
  case keyed =>
    rw [cache, mirror_tellNext]
    exact hkept.keyed
  all_goals rw [mirror_tellNext]
  · exact hkept.coherent
  · exact hkept.aged

theorem Kept.step (hkept : h.Kept) (hstep : Step h h') : h'.Kept := by
  cases hstep with
  | write call => exact hkept.written call
  | move m changes hdue hmove => exact hkept.moved hdue hmove
  | tell => exact hkept.tellNext

theorem Kept.run (hkept : h.Kept) (hrun : ReflTransGen Step h h') : h'.Kept := by
  induction hrun with
  | refl => exact hkept
  | tail _ hstep ih => exact ih.step hstep

/-- However writes fall among the moves of an informer, and however often it misses news and
lists the store again, what a handler was told of makes the cache from nothing, with what it
has still to be told of of the informer's last move. Each change that it was told of fits what
those before it have made : what is added was not there, an update carries what was there and
something newer, and what is deleted was there. -/
theorem history_of_reachable {room handlers : Nat} (hreach : Reachable room handlers h)
    (hi : i < handlers) :
    (h.awaited i = [] → Objects.replay (h.heard i) = h.cache) ∧
    Objects.replay (h.heard i ++ h.awaited i) = h.cache ∧
    ∀ (n : Nat) (c : Change α), (h.heard i)[n]? = some c →
      c.FollowsOn (Objects.replay ((h.heard i).take n)) := by
  have hsame : h.handlers = handlers := by
    induction hreach with
    | refl => rfl
    | tail _ hstep ih => exact hstep.handlers_eq.trans ih
  have hleads := ((kept_start room handlers).run hreach).history i (hsame ▸ hi)
  have hreplay : Objects.replay (h.heard i ++ h.awaited i) = h.cache := hleads.foldl_eq
  refine ⟨fun hnone => ?_, hreplay, fun n c hc => ?_⟩
  · rwa [hnone, List.append_nil] at hreplay
  · have hn : n < (h.heard i).length := (List.getElem?_eq_some_iff.1 hc).1
    have hfollows := hleads.followsOn (n := n) (by rwa [List.getElem?_append_left hn])
    rwa [List.take_append_of_le_length hn.le] at hfollows

/-- Two handlers were told of a node. Then their informer misses news of it and of another. -/
def late : Herald Node :=
  let h : Herald Node := start 2 2
  let h := h.moved { h.mirror with errand := some (.arrival h.mirror.shelf.feed.tail) } []
  let h := h.written (.create Mirror.birth (Mirror.node "north" 0))
  let h := h.moved h.mirror.list []
  let listed := h.mirror.shelf.store.objects.list none .everything
  let h := h.moved h.mirror.takeOver ((Errand.arrival 0).told h.mirror.shelf.informer listed)
  let h := h.tellNext.tellNext
  let h := h.written (.create Mirror.birth (Mirror.node "south" 0))
  h.written (.update (Mirror.node "north" 1))

/-- The first node is deleted before the informer lists the store again, and of this it has
missed news too. -/
def lateAgain : Herald Node :=
  let h := late
  let seen := h.mirror.shelf.feed
  let h := h.moved { h.mirror with errand := some (.lag seen) } []
  let h := h.written (.delete ⟨"", "north"⟩)
  let h := h.moved h.mirror.list []
  let listed := h.mirror.shelf.store.objects.list none .everything
  let h := h.moved h.mirror.takeOver ((Errand.lag seen).told h.mirror.shelf.informer listed)
  h.tellNext.tellNext.tellNext.tellNext

/-- After the third list the informer reads of an old update of the node that was deleted, and
of the deletion. Of the deletion the second handler was not told yet. -/
def onTime : Herald Node :=
  let h := lateAgain
  let seen := h.mirror.shelf.feed
  let h := h.moved { h.mirror with errand := some (.lag seen) } []
  let h := h.moved h.mirror.list []
  let listed := h.mirror.shelf.store.objects.list none .everything
  let h := h.moved h.mirror.takeOver ((Errand.lag seen).told h.mirror.shelf.informer listed)
  let h := h.moved h.mirror.read (h.mirror.shelf.informer.follow h.mirror.shelf.feed (.ok [])).1
  let h := h.tellNext.tellNext
  let h := h.moved h.mirror.read (h.mirror.shelf.informer.follow h.mirror.shelf.feed (.ok [])).1
  h.tellNext

theorem reachable_late : Reachable 2 2 late :=
  ReflTransGen.refl
    |>.tail (.move _ _ _ rfl (.subscribe _ rfl rfl))
    |>.tail (.write _ (.create Mirror.birth (Mirror.node "north" 0)))
    |>.tail (.move _ _ _ (by decide +kernel) (.list _ rfl))
    |>.tail (.move _ _ _ (by decide +kernel) (.takeOver _ (.arrival 0) _ rfl rfl))
    |>.tail (.tell _)
    |>.tail (.tell _)
    |>.tail (.write _ (.create Mirror.birth (Mirror.node "south" 0)))
    |>.tail (.write _ (.update (Mirror.node "north" 1)))

theorem reachable_lateAgain : Reachable 2 2 lateAgain :=
  reachable_late
    |>.tail (.move _ _ _ (by decide +kernel)
      (.lag _ (Option.isNone_iff_eq_none.1 (by decide +kernel)) (by decide +kernel)))
    |>.tail (.write _ (.delete ⟨"", "north"⟩))
    |>.tail (.move _ _ _ (by decide +kernel) (.list _ (by decide +kernel)))
    |>.tail (.move _ _ _ (by decide +kernel) (.takeOver _ (.lag _) _ rfl rfl))
    |>.tail (.tell _)
    |>.tail (.tell _)
    |>.tail (.tell _)
    |>.tail (.tell _)

theorem reachable_onTime : Reachable 2 2 onTime :=
  reachable_lateAgain
    |>.tail (.move _ _ _ (by decide +kernel)
      (.lag _ (Option.isNone_iff_eq_none.1 (by decide +kernel)) (by decide +kernel)))
    |>.tail (.move _ _ _ (by decide +kernel) (.list _ (by decide +kernel)))
    |>.tail (.move _ _ _ (by decide +kernel) (.takeOver _ (.lag _) _ rfl rfl))
    |>.tail (.move _ _ _ (by decide +kernel)
      (.read _ (Option.isNone_iff_eq_none.1 (by decide +kernel)) (by decide +kernel)))
    |>.tail (.tell _)
    |>.tail (.tell _)
    |>.tail (.move _ _ _ (by decide +kernel)
      (.read _ (Option.isNone_iff_eq_none.1 (by decide +kernel)) (by decide +kernel)))
    |>.tail (.tell _)

/-- The first handler was told of two nodes that came, of the first one that went, and that it
came and went again. The second handler has to be told of the last of this still. -/
theorem history_onTime :
    let north := Shelf.north 7 0
    let south : Node :=
      ⟨{ Meta.new "" "south" with uid := some ⟨7⟩, created := some ⟨0, 0⟩, version := 2 }, ⟨[]⟩⟩
    onTime.heard 0 = [.added (north 1), .added south, .deleted (north 1), .added (north 3),
      .deleted (north 3)] ∧
    Objects.replay (onTime.heard 0) = onTime.cache ∧
    onTime.awaited 1 = [.deleted (north 3)] ∧
    Objects.replay (onTime.heard 1 ++ onTime.awaited 1) = onTime.cache ∧
    (Change.deleted (north 1)).FollowsOn (Objects.replay ((onTime.heard 0).take 2)) := by
  intro north south
  have hreach := reachable_onTime
  have hheard : onTime.heard 0 = [.added (north 1), .added south, .deleted (north 1),
    .added (north 3), .deleted (north 3)] := by decide +kernel
  obtain ⟨hcache, -, hfollows⟩ := history_of_reachable hreach (i := 0) (by omega)
  obtain ⟨-, hcache', -⟩ := history_of_reachable hreach (i := 1) (by omega)
  exact ⟨hheard, hcache (by decide +kernel), by decide +kernel, hcache',
    hfollows 2 _ (by rw [hheard]; rfl)⟩

end Herald

end GameFleet
