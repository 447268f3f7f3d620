import GameFleet.Proofs.Store.Calls
import GameFleet.Proofs.Store.History
import Mathlib.Logic.Relation

/-!
# Clients of a store

A `Clientele` is a store with all that was done to it : the writes that were committed,
what each client has read, and the calls of `Access.edit` that were begun, each with the
program that is left of it. Clients read, write and begin calls, and the requests of calls
are served, in any order (`Clientele.Step`). The one thing asked of them is that what they
write has the key and the version of something they have read.

What a run keeps is `Clientele.Consistent`. Each write has replaced the object that was
read for it (`Clientele.Replaces`), since an object with the version that was read is the
object that was read, and each call is accounted for by what it has read and what was
stored for it (`Clientele.Accounts`).
-/

set_option linter.unusedSectionVars false

open Relation

namespace GameFleet

/-! ## Deeds -/

/-- Who writes. -/
inductive Author where
  | client (n : Nat)
  /-- A call of `Access.edit`. -/
  | call (n : Nat)
  deriving DecidableEq

/-- An object that someone has read as it was stored after so many changes. -/
structure Sighting (α : Type) where
  author : Author
  moment : Nat
  object : α

/-- What someone wanted to do by a write. -/
inductive Deed (α : Type) where
  | create (birth : Birth) (a : α)
  /-- To write `a`, which is what `mutate` makes of the object that was read. -/
  | update (a : α) (mutate : α → α)
  | delete (k : Key)

/-- What a deed does when its turn comes. A mutation is of what is stored then. -/
def Deed.apply {α : Type} [Resource α] (s : Store α) : Deed α → Store α
  | .create birth a => s.commit (.added (s.newborn birth a))
  | .update a mutate =>
    match s.get? (Resource.key a) with
    | some old => s.commit (.updated old (s.successor old (mutate old)))
    | none => s
  | .delete k =>
    match s.get? k with
    | some old => s.commit (.deleted old)
    | none => s

/-- A write that a store has done. -/
structure Commit (α : Type) where
  author : Author
  deed : Deed α
  change : Change α

/-! ## Clienteles -/

structure Clientele (kind : Kind) where
  store : Store kind.Obj
  /-- The writes so far, the oldest first. -/
  log : List (Commit kind.Obj)
  sightings : List (Sighting kind.Obj)
  /-- The calls so far, with those that are done. -/
  calls : List (EditCall kind)

namespace Clientele

variable {kind : Kind}

/-- An empty store that nobody has called. -/
def start : Clientele kind := ⟨.empty, [], [], []⟩

def changes (w : Clientele kind) : List (Change kind.Obj) := w.log.map Commit.change

/-- The store after the first `n` writes. -/
def past (w : Clientele kind) (n : Nat) : Store kind.Obj := Store.past w.changes n

/-! ## Moves -/

def see (w : Clientele kind) (author : Author) (moment : Nat) (a : kind.Obj) : Clientele kind :=
  { w with sightings := ⟨author, moment, a⟩ :: w.sightings }

/-- Someone has looked under a key. -/
def looked (w : Clientele kind) (author : Author) : Option kind.Obj → Clientele kind
  | some a => w.see author w.log.length a
  | none => w

/-- Someone has called for a write, which may have failed. -/
def wrote (w : Clientele kind) (author : Author) (deed : Deed kind.Obj) :
    Except StoreError (Change kind.Obj × Store kind.Obj) → Clientele kind
  | .ok (c, store) => { w with store, log := w.log ++ [⟨author, deed, c⟩] }
  | .error _ => w

/-- What someone who called for a write is told. -/
def reply {α : Type} (outcome : Except StoreError (Change α × Store α)) : Except StoreError α :=
  outcome.map fun written => written.1.object

def begin (w : Clientele kind) (retry : Retry) (key : Key)
    (edit : kind.Obj → kind.Obj × Bool) : Clientele kind :=
  { w with calls := w.calls ++ [⟨key, edit, (Access.edit retry kind key edit).run⟩] }

/-- A call was answered. -/
def goOn (w : Clientele kind) (n : Nat) (call : EditCall kind)
    (left : Program (Except StoreError (Option kind.Obj))) : Clientele kind :=
  { w with calls := w.calls.set n { call with left } }

/-- What writes keeps its key and its version, which are the store's business. -/
def Minds (edit : kind.Obj → kind.Obj × Bool) : Prop :=
  ∀ a copy, edit a = (copy, true) →
    Resource.key copy = Resource.key a ∧ Resource.version copy = Resource.version a

/-- What clients and calls can do next. -/
inductive Step : Clientele kind → Clientele kind → Prop where
  /-- A client reads an object, from the store, from a cache that is behind, or because it
  has stored the object. -/
  | see (w : Clientele kind) (n moment : Nat) (k : Key) (a : kind.Obj)
    (hmoment : moment ≤ w.log.length) (ha : (w.past moment).get? k = some a) :
    Step w (w.see (.client n) moment a)
  | create (w : Clientele kind) (n : Nat) (birth : Birth) (a : kind.Obj) :
    Step w (w.wrote (.client n) (.create birth a) (w.store.create birth a))
  | update (w : Clientele kind) (n : Nat) (s : Sighting kind.Obj) (a : kind.Obj)
    (hs : s ∈ w.sightings) (hauthor : s.author = .client n)
    (hkey : Resource.key a = Resource.key s.object)
    (hversion : Resource.version a = Resource.version s.object) :
    Step w (w.wrote (.client n) (.update a fun _ => a) (w.store.update a))
  | delete (w : Clientele kind) (n : Nat) (k : Key) :
    Step w (w.wrote (.client n) (.delete k) (w.store.delete k))
  | begin (w : Clientele kind) (retry : Retry) (key : Key) (edit : kind.Obj → kind.Obj × Bool)
    (hminds : Minds edit) : Step w (w.begin retry key edit)
  /-- The store serves what a call asks for next. -/
  | serveGet (w : Clientele kind) (n : Nat) (call : EditCall kind) (k : Key)
    (next : Except StoreError (Option kind.Obj) → Program (Except StoreError (Option kind.Obj)))
    (hcall : w.calls[n]? = some call) (hleft : call.left = .call (.get kind k) next) :
    Step w ((w.looked (.call n) (w.store.get? k)).goOn n call (next (.ok (w.store.get? k))))
  | serveUpdate (w : Clientele kind) (n : Nat) (call : EditCall kind) (a : kind.Obj)
    (next : Except StoreError kind.Obj → Program (Except StoreError (Option kind.Obj)))
    (hcall : w.calls[n]? = some call) (hleft : call.left = .call (.update kind a) next) :
    Step w ((w.wrote (.call n) (.update a fun x => (call.edit x).1) (w.store.update a)).goOn n call
      (next (reply (w.store.update a))))
  | pause (w : Clientele kind) (n : Nat) (call : EditCall kind) (failures : Nat)
    (next : Unit → Program (Except StoreError (Option kind.Obj)))
    (hcall : w.calls[n]? = some call) (hleft : call.left = .call (.pause failures) next) :
    Step w (w.goOn n call (next ()))

/-- Any number of steps. -/
abbrev Run : Clientele kind → Clientele kind → Prop := ReflTransGen Step

/-- A clientele that a run from an empty store leads to. -/
def Reachable (w : Clientele kind) : Prop := Run start w

/-! ## Commits -/

/-- What the store held when a write was committed, and what the write did. -/
def Replaces (w : Clientele kind) (i : Nat) (c : Commit kind.Obj) : Prop :=
  match c.deed with
  | .create birth a =>
    (w.past i).get? (Resource.key a) = none ∧ c.change = .added ((w.past i).newborn birth a)
  | .update a mutate =>
    ∃ s ∈ w.sightings, s.author = c.author ∧ s.moment ≤ i ∧ Resource.key s.object = Resource.key a ∧
      Resource.version s.object = Resource.version a ∧ mutate s.object = a ∧
      (w.past i).get? (Resource.key a) = some s.object ∧
      ¬Store.Changed w.changes (Resource.key a) s.moment i ∧
      c.change = .updated s.object ((w.past i).successor s.object a)
  | .delete k => ∃ old, (w.past i).get? k = some old ∧ c.change = .deleted old

/-- The log is the log of the store, sightings are true, and each write has replaced what
its author had read. -/
structure Faithful (w : Clientele kind) : Prop where
  records : Store.Records w.changes w.store
  sighted : ∀ s ∈ w.sightings,
    s.moment ≤ w.log.length ∧ (w.past s.moment).get? (Resource.key s.object) = some s.object
  replaces : ∀ i c, w.log[i]? = some c → w.Replaces i c

variable {w v : Clientele kind}

theorem length_changes (w : Clientele kind) : w.changes.length = w.log.length :=
  List.length_map _

theorem past_of_extends (hlog : w.log <+: v.log) {i : Nat} (hi : i ≤ w.log.length) :
    v.past i = w.past i := by
  obtain ⟨more, hmore⟩ := hlog
  unfold past changes
  rw [← hmore, List.map_append, Store.past_append _ (by rwa [List.length_map])]

theorem Replaces.mono {i : Nat} {c : Commit kind.Obj} (h : w.Replaces i c)
    (hi : i ≤ w.log.length) (hlog : w.log <+: v.log) (hsub : w.sightings ⊆ v.sightings) :
    v.Replaces i c := by
  have hpast := past_of_extends hlog hi
  unfold Replaces at h ⊢
  rw [hpast]
  split at h
  · exact h
  · obtain ⟨s, hs, hauthor, hmoment, hkey, hversion, hmutate, hget, hnot, hchange⟩ := h
    refine ⟨s, hsub hs, hauthor, hmoment, hkey, hversion, hmutate, hget,
      fun hch => hnot ?_, hchange⟩
    obtain ⟨more, hmore⟩ := hlog
    rw [changes, ← hmore, List.map_append] at hch
    exact Store.changed_of_append (by rwa [length_changes]) hch
  · exact h

namespace Faithful

theorem past_length (h : w.Faithful) : w.past w.log.length = w.store := by
  rw [← length_changes]
  exact h.records.past_eq

theorem see (h : w.Faithful) (author : Author) {moment : Nat} {k : Key} {a : kind.Obj}
    (hmoment : moment ≤ w.log.length) (ha : (w.past moment).get? k = some a) :
    (w.see author moment a).Faithful where
  records := h.records
  sighted s hs := by
    rcases List.mem_cons.1 hs with rfl | hs
    · refine ⟨hmoment, ?_⟩
      have hsound := h.records.legal.sound (by rwa [length_changes] : moment ≤ w.changes.length)
      have hkey : Resource.key a = k := hsound.key_eq ha
      exact hkey.symm ▸ ha
    · exact h.sighted s hs
  replaces i c hc := by
    have hi : i < w.log.length := (List.getElem?_eq_some_iff.1 hc).1
    exact (h.replaces i c hc).mono hi.le (List.prefix_refl _) (List.subset_cons_self _ _)

theorem looked (h : w.Faithful) (author : Author) (k : Key) :
    (w.looked author (w.store.get? k)).Faithful := by
  unfold Clientele.looked
  split
  · next a ha => exact h.see author le_rfl (by rw [h.past_length, ha])
  · exact h

theorem wrote (h : w.Faithful) {author : Author} {deed : Deed kind.Obj}
    {outcome : Except StoreError (Change kind.Obj × Store kind.Obj)}
    (hw : ∀ c s, outcome = .ok (c, s) →
      Store.Records (w.changes ++ [c]) s ∧ w.Replaces w.log.length ⟨author, deed, c⟩) :
    (w.wrote author deed outcome).Faithful := by
  rcases outcome with cause | ⟨c, s⟩
  · exact h
  · obtain ⟨hrecords, hreplaces⟩ := hw c s rfl
    have hprefix : w.log <+: w.log ++ [⟨author, deed, c⟩] := List.prefix_append _ _
    have hpast {i : Nat} (hi : i ≤ w.log.length) :
        (w.wrote author deed (.ok (c, s))).past i = w.past i := past_of_extends hprefix hi
    refine ⟨?_, fun s' hs => ?_, fun i d hd => ?_⟩
    · simpa [changes, Clientele.wrote] using hrecords
    · obtain ⟨hmoment, hget⟩ := h.sighted s' hs
      refine ⟨?_, by rwa [hpast hmoment]⟩
      simp only [Clientele.wrote, List.length_append, List.length_singleton]
      omega
    · rcases Nat.lt_trichotomy i w.log.length with hlt | rfl | hgt
      · simp only [Clientele.wrote, List.getElem?_append_left hlt] at hd
        exact (h.replaces i d hd).mono hlt.le hprefix (List.Subset.refl _)
      · obtain rfl : ⟨author, deed, c⟩ = d := by simpa [Clientele.wrote] using hd
        exact hreplaces.mono le_rfl hprefix (List.Subset.refl _)
      · simp only [Clientele.wrote] at hd
        rw [List.getElem?_eq_none (by simp; omega)] at hd
        cases hd

theorem create (h : w.Faithful) (author : Author) (birth : Birth) (a : kind.Obj) :
    (w.wrote author (.create birth a) (w.store.create birth a)).Faithful := by
  refine h.wrote fun c s hw => ⟨h.records.create hw, ?_⟩
  obtain ⟨hnone, hc, -⟩ := Store.create_eq_ok hw
  unfold Replaces
  rw [h.past_length]
  exact ⟨hnone, hc⟩

theorem delete (h : w.Faithful) (author : Author) (k : Key) :
    (w.wrote author (.delete k) (w.store.delete k)).Faithful := by
  refine h.wrote fun c s hw => ⟨h.records.delete hw, ?_⟩
  obtain ⟨old, hold, hc, -⟩ := Store.delete_eq_ok h.records.sound hw
  unfold Replaces
  rw [h.past_length]
  exact ⟨old, hold, hc⟩

/-- An update that carries the version of a sighting replaces the object of the sighting,
which was not written since. -/
theorem stored_of_update (h : w.Faithful) {s : Sighting kind.Obj} (hs : s ∈ w.sightings)
    {a : kind.Obj} (hkey : Resource.key a = Resource.key s.object)
    (hversion : Resource.version a = Resource.version s.object) {c : Change kind.Obj}
    {t : Store kind.Obj} (hw : w.store.update a = .ok (c, t)) :
    w.store.get? (Resource.key a) = some s.object ∧
      ¬Store.Changed w.changes (Resource.key a) s.moment w.log.length ∧
      c = .updated s.object (w.store.successor s.object a) := by
  obtain ⟨hmoment, hseen⟩ := h.sighted s hs
  obtain ⟨old, hold, hold_version, hc, -⟩ := Store.update_eq_ok hw
  have hpast : (w.past w.log.length).get? (Resource.key a) = some old := by
    rw [h.past_length, hold]
  obtain ⟨rfl, hnot⟩ := Store.unchanged_of_version_eq h.records.legal hmoment
    (by rw [length_changes]) (hkey ▸ hseen) hpast (hversion.symm.trans hold_version.symm)
  exact ⟨hold, hnot, hc⟩

theorem update (h : w.Faithful) {s : Sighting kind.Obj} (hs : s ∈ w.sightings) {a : kind.Obj}
    (hkey : Resource.key a = Resource.key s.object)
    (hversion : Resource.version a = Resource.version s.object) {mutate : kind.Obj → kind.Obj}
    (hmutate : mutate s.object = a) :
    (w.wrote s.author (.update a mutate) (w.store.update a)).Faithful := by
  refine h.wrote fun c t hw => ⟨h.records.update hw, ?_⟩
  obtain ⟨hold, hnot, hc⟩ := h.stored_of_update hs hkey hversion hw
  unfold Replaces
  rw [h.past_length]
  exact ⟨s, hs, rfl, (h.sighted s hs).1, hkey.symm, hversion.symm, hmutate, hold, hnot, hc⟩

end Faithful

/-! ## What calls have done -/

/-- A call has written once, namely `b`, which is what `edit` made of the object stored before,
with what the store controls. -/
def WroteOnce (w : Clientele kind) (n : Nat) (call : EditCall kind) (b : kind.Obj) : Prop :=
  ∃ i c old copy, w.log[i]? = some c ∧ c.author = .call n ∧
    (∀ j d, w.log[j]? = some d → d.author = .call n → j = i) ∧
    (w.past i).get? call.key = some old ∧ call.edit old = (copy, true) ∧
    b = (w.past i).successor old copy ∧ c.change = .updated old b

/-- What a call has come to is what it has done. -/
structure Accounts (w : Clientele kind) (n : Nat) (call : EditCall kind)
    (p : Progress kind.Obj) : Prop where
  seen : ∀ a, p.seen = some a →
    Resource.key a = call.key ∧ ∃ s ∈ w.sightings, s.author = .call n ∧ s.object = a
  wrote : ∀ b, p.wrote = some b → w.WroteOnce n call b
  none : p.wrote = none → ∀ c ∈ w.log, c.author ≠ .call n

/-- What is left of a call goes on from what it has come to. -/
def Goes (w : Clientele kind) (n : Nat) (call : EditCall kind) : Prop :=
  Minds call.edit ∧ ∃ p, w.Accounts n call p ∧
    call.left.Keeps (Progress.contract kind call.key call.edit) (Progress.Returns call.edit) p

theorem WroteOnce.mono {n : Nat} {call : EditCall kind} {b : kind.Obj} (h : w.WroteOnce n call b)
    (more : List (Commit kind.Obj)) (hlog : v.log = w.log ++ more)
    (hmore : ∀ c ∈ more, c.author ≠ .call n) : v.WroteOnce n call b := by
  obtain ⟨i, c, old, copy, hc, hauthor, honly, hold, hedit, hb, hchange⟩ := h
  have hi : i < w.log.length := (List.getElem?_eq_some_iff.1 hc).1
  have hpast : v.past i = w.past i := past_of_extends (hlog ▸ List.prefix_append _ _) hi.le
  refine ⟨i, c, old, copy, ?_, hauthor, fun j d hd hd_author => ?_, by rwa [hpast], hedit,
    by rwa [hpast], hchange⟩
  · rw [hlog, List.getElem?_append_left hi, hc]
  · rw [hlog] at hd
    rcases Nat.lt_or_ge j w.log.length with hlt | hge
    · rw [List.getElem?_append_left hlt] at hd
      exact honly j d hd hd_author
    · rw [List.getElem?_append_right hge] at hd
      exact absurd hd_author (hmore d (List.mem_of_getElem? hd))

/-- What others do does not change what a call has done. -/
theorem Accounts.mono {n : Nat} {call : EditCall kind} {p : Progress kind.Obj}
    (h : w.Accounts n call p) (more : List (Commit kind.Obj)) (hlog : v.log = w.log ++ more)
    (hmore : ∀ c ∈ more, c.author ≠ .call n) (hsub : w.sightings ⊆ v.sightings) :
    v.Accounts n call p where
  seen a ha := by
    obtain ⟨hkey, s, hs, hauthor, hobject⟩ := h.seen a ha
    exact ⟨hkey, s, hsub hs, hauthor, hobject⟩
  wrote b hb := (h.wrote b hb).mono more hlog hmore
  none hnone c hc := by
    rw [hlog, List.mem_append] at hc
    rcases hc with hc | hc
    · exact h.none hnone c hc
    · exact hmore c hc

theorem Goes.mono {n : Nat} {call : EditCall kind} (h : w.Goes n call)
    (more : List (Commit kind.Obj)) (hlog : v.log = w.log ++ more)
    (hmore : ∀ c ∈ more, c.author ≠ .call n) (hsub : w.sightings ⊆ v.sightings) :
    v.Goes n call := by
  obtain ⟨hminds, p, hp, hleft⟩ := h
  exact ⟨hminds, p, hp.mono more hlog hmore hsub, hleft⟩

/-- A call that had not written has written once when it has. -/
theorem Faithful.wroteOnce (h : w.Faithful) {n : Nat} {call : EditCall kind}
    (hnone : ∀ c ∈ w.log, c.author ≠ .call n) {old copy : kind.Obj}
    (hold : w.store.get? call.key = some old) (hedit : call.edit old = (copy, true))
    (deed : Deed kind.Obj) (t : Store kind.Obj) :
    WroteOnce (w.wrote (.call n) deed (.ok (.updated old (w.store.successor old copy), t))) n call
      (w.store.successor old copy) := by
  have hpast : past (w.wrote (.call n) deed (.ok (.updated old (w.store.successor old copy), t)))
      w.log.length = w.store := by
    rw [past_of_extends (w := w) (List.prefix_append _ _) le_rfl, h.past_length]
  refine ⟨w.log.length, ⟨.call n, deed, .updated old (w.store.successor old copy)⟩, old, copy,
    by simp [Clientele.wrote], rfl, fun j d hd hauthor => ?_, by rw [hpast, hold], hedit,
    by rw [hpast], rfl⟩
  simp only [Clientele.wrote] at hd
  rcases Nat.lt_or_ge j w.log.length with hlt | hge
  · rw [List.getElem?_append_left hlt] at hd
    exact absurd hauthor (hnone d (List.mem_of_getElem? hd))
  · have hlast : j < (w.log ++ [(⟨.call n, deed, .updated old (w.store.successor old copy)⟩ :
        Commit kind.Obj)]).length := (List.getElem?_eq_some_iff.1 hd).1
    rw [List.length_append, List.length_singleton] at hlast
    omega

/-- A call that has just begun has done nothing. -/
theorem goes_begin {n : Nat} (hfresh : ∀ c ∈ w.log, c.author ≠ .call n) (retry : Retry)
    (key : Key) {edit : kind.Obj → kind.Obj × Bool} (hminds : Minds edit) :
    w.Goes n ⟨key, edit, (Access.edit retry kind key edit).run⟩ := by
  refine ⟨hminds, ⟨none, none⟩, ?_, ?_⟩
  · exact ⟨fun a ha => (by cases ha), fun b hb => (by cases hb), fun _ => hfresh⟩
  · exact (Progress.edits kind key edit).keeps retry rfl

/-! ## Every run -/

/-- Writes and reads are faithful, every call goes on from what it has done, and only calls
that were begun have written. -/
structure Consistent (w : Clientele kind) : Prop where
  faithful : w.Faithful
  goes : ∀ n call, w.calls[n]? = some call → w.Goes n call
  begun : ∀ c ∈ w.log, ∀ n, c.author = .call n → n < w.calls.length

theorem consistent_start : (start : Clientele kind).Consistent where
  faithful := ⟨Store.records_empty, fun _ hs => (by cases hs), fun _ _ hc => by simp [start] at hc⟩
  goes _ _ hcall := by simp [start] at hcall
  begun _ hc := by cases hc

namespace Consistent

/-- A client on its own writes. -/
theorem wrote (h : w.Consistent) {n : Nat} {deed : Deed kind.Obj}
    {outcome : Except StoreError (Change kind.Obj × Store kind.Obj)}
    (hw : (w.wrote (.client n) deed outcome).Faithful) :
    (w.wrote (.client n) deed outcome).Consistent := by
  rcases outcome with cause | ⟨c, s⟩
  · exact h
  · refine ⟨hw, fun m call hcall => ?_, fun d hd m hm => ?_⟩
    · refine (h.goes m call hcall).mono [⟨.client n, deed, c⟩] rfl ?_ (List.Subset.refl _)
      intro d hd
      rw [List.mem_singleton.1 hd]
      simp
    · rcases List.mem_append.1 hd with hd | hd
      · exact h.begun d hd m hm
      · rw [List.mem_singleton.1 hd] at hm
        cases hm

theorem see (h : w.Consistent) {n moment : Nat} {k : Key} {a : kind.Obj}
    (hmoment : moment ≤ w.log.length) (ha : (w.past moment).get? k = some a) :
    (w.see (.client n) moment a).Consistent where
  faithful := h.faithful.see _ hmoment ha
  goes m call hcall := (h.goes m call hcall).mono [] (List.append_nil _).symm
    (fun _ hc => by cases hc) (List.subset_cons_self _ _)
  begun := h.begun

theorem begin (h : w.Consistent) (retry : Retry) (key : Key)
    {edit : kind.Obj → kind.Obj × Bool} (hminds : Minds edit) :
    (w.begin retry key edit).Consistent := by
  have hlen : (w.begin retry key edit).calls.length = w.calls.length + 1 := by
    simp [Clientele.begin]
  refine ⟨⟨h.faithful.records, h.faithful.sighted, h.faithful.replaces⟩, fun n call hcall => ?_,
    fun c hc n hn => ?_⟩
  · refine Goes.mono (w := w) ?_ [] (List.append_nil _).symm (fun _ hc => by cases hc)
      (List.Subset.refl _)
    simp only [Clientele.begin] at hcall
    rcases Nat.lt_trichotomy n w.calls.length with hlt | rfl | hgt
    · rw [List.getElem?_append_left hlt] at hcall
      exact h.goes n call hcall
    · obtain rfl : (⟨key, edit, (Access.edit retry kind key edit).run⟩ : EditCall kind) = call := by
        simpa using hcall
      refine goes_begin (fun c hc hauthor => ?_) retry key hminds
      exact Nat.lt_irrefl _ (h.begun c hc _ hauthor)
    · rw [List.getElem?_eq_none (by simp; omega)] at hcall
      cases hcall
  · have := h.begun c hc n hn
    omega

/-- The store serves a call, and the call goes on. -/
theorem serve (h : w.Consistent) {n : Nat} {call : EditCall kind}
    {left : Program (Except StoreError (Option kind.Obj))} (hcall : w.calls[n]? = some call)
    (hcalls : v.calls = w.calls) (hv : v.Faithful) {more : List (Commit kind.Obj)}
    (hlog : v.log = w.log ++ more) (hmore : ∀ c ∈ more, c.author = .call n)
    (hsub : w.sightings ⊆ v.sightings) (hgoes : v.Goes n { call with left }) :
    (v.goOn n call left).Consistent := by
  have hn : n < w.calls.length := (List.getElem?_eq_some_iff.1 hcall).1
  refine ⟨⟨hv.records, hv.sighted, hv.replaces⟩, fun m other hother => ?_, fun c hc m hm => ?_⟩
  · simp only [goOn, hcalls, List.getElem?_set] at hother
    split at hother
    · next hnm =>
      subst hnm
      cases hother
      exact hgoes.mono [] (List.append_nil _).symm (fun _ hc => by cases hc) (List.Subset.refl _)
    · next hnm =>
      refine (h.goes m other hother).mono more hlog (fun c hc heq => ?_) hsub
      exact hnm (Author.call.inj ((hmore c hc).symm.trans heq))
  · simp only [goOn, List.length_set, hcalls]
    change c ∈ v.log at hc
    rw [hlog, List.mem_append] at hc
    rcases hc with hc | hc
    · exact h.begun c hc m hm
    · rwa [Author.call.inj (hm.symm.trans (hmore c hc))]

theorem serveGet (h : w.Consistent) {n : Nat} {call : EditCall kind} {k : Key}
    {next : Except StoreError (Option kind.Obj) → Program (Except StoreError (Option kind.Obj))}
    (hcall : w.calls[n]? = some call) (hleft : call.left = .call (.get kind k) next) :
    ((w.looked (.call n) (w.store.get? k)).goOn n call
      (next (.ok (w.store.get? k)))).Consistent := by
  obtain ⟨hminds, p, hp, hkeeps⟩ := h.goes n call hcall
  rw [hleft] at hkeeps
  obtain ⟨hmay, hnext⟩ := hkeeps
  cases hmay
  have hv := h.faithful.looked (.call n) call.key
  cases hget : w.store.get? call.key with
  | none =>
    exact h.serve hcall rfl h.faithful (List.append_nil _).symm (fun _ hc => by cases hc)
      (List.Subset.refl _) ⟨hminds, p, ⟨hp.seen, hp.wrote, hp.none⟩, hnext _ _ .missing⟩
  | some a =>
    rw [hget] at hv
    have hsub : w.sightings ⊆ (w.see (.call n) w.log.length a).sightings :=
      List.subset_cons_self _ _
    have hq := hp.mono (v := w.see (.call n) w.log.length a) [] (List.append_nil _).symm
      (fun _ hc => by cases hc) hsub
    refine h.serve hcall rfl hv (List.append_nil _).symm (fun _ hc => by cases hc) hsub
      ⟨hminds, { p with seen := some a }, ⟨fun b hb => ?_, hq.wrote, hq.none⟩, hnext _ _ .found⟩
    cases hb
    exact ⟨h.faithful.records.sound.key_eq hget, _, List.mem_cons_self, rfl, rfl⟩

theorem serveUpdate (h : w.Consistent) {n : Nat} {call : EditCall kind} {a : kind.Obj}
    {next : Except StoreError kind.Obj → Program (Except StoreError (Option kind.Obj))}
    (hcall : w.calls[n]? = some call) (hleft : call.left = .call (.update kind a) next) :
    ((w.wrote (.call n) (.update a fun x => (call.edit x).1) (w.store.update a)).goOn n call
      (next (reply (w.store.update a)))).Consistent := by
  obtain ⟨hminds, p, hp, hkeeps⟩ := h.goes n call hcall
  rw [hleft] at hkeeps
  obtain ⟨hmay, hnext⟩ := hkeeps
  cases hmay with
  | update hseen hedit hnone =>
    obtain ⟨hkey_seen, s, hs, hauthor, rfl⟩ := hp.seen _ hseen
    obtain ⟨hkey, hversion⟩ := hminds _ _ hedit
    have hv : (w.wrote s.author (.update a fun x => (call.edit x).1)
        (w.store.update a)).Faithful :=
      h.faithful.update hs hkey hversion (congrArg Prod.fst hedit)
    rw [hauthor] at hv
    cases hw : w.store.update a with
    | error e =>
      exact h.serve hcall rfl h.faithful (List.append_nil _).symm (fun _ hc => by cases hc)
        (List.Subset.refl _) ⟨hminds, p, ⟨hp.seen, hp.wrote, hp.none⟩, hnext _ _ .refused⟩
    | ok written =>
      obtain ⟨c, t⟩ := written
      obtain ⟨hold, -, rfl⟩ := h.faithful.stored_of_update hs hkey hversion hw
      rw [hw] at hv
      rw [hkey.trans hkey_seen] at hold
      have hwrote := h.faithful.wroteOnce (hp.none hnone) hold hedit
        (.update a fun x => (call.edit x).1) t
      refine h.serve hcall rfl hv rfl (fun d hd => by rw [List.mem_singleton.1 hd])
        (List.Subset.refl _) ⟨hminds, { p with wrote := some (w.store.successor s.object a) },
          ⟨hp.seen, fun b hb => ?_, fun hno => (by cases hno)⟩, hnext _ _ .written⟩
      cases hb
      exact hwrote

theorem pause (h : w.Consistent) {n : Nat} {call : EditCall kind} {failures : Nat}
    {next : Unit → Program (Except StoreError (Option kind.Obj))}
    (hcall : w.calls[n]? = some call) (hleft : call.left = .call (.pause failures) next) :
    (w.goOn n call (next ())).Consistent := by
  obtain ⟨hminds, p, hp, hkeeps⟩ := h.goes n call hcall
  rw [hleft] at hkeeps
  exact h.serve hcall rfl h.faithful (List.append_nil _).symm (fun _ hc => by cases hc)
    (List.Subset.refl _) ⟨hminds, p, ⟨hp.seen, hp.wrote, hp.none⟩, hkeeps.2 _ _ .paused⟩

theorem step (h : w.Consistent) (hs : Step w v) : v.Consistent := by
  cases hs with
  | see n moment k a hmoment ha => exact h.see hmoment ha
  | create n birth a => exact h.wrote (h.faithful.create _ birth a)
  | update n s a hs hauthor hkey hversion =>
    exact h.wrote (hauthor ▸ h.faithful.update hs hkey hversion rfl)
  | delete n k => exact h.wrote (h.faithful.delete _ k)
  | begin retry key edit hminds => exact h.begin retry key hminds
  | serveGet n call k next hcall hleft => exact h.serveGet hcall hleft
  | serveUpdate n call a next hcall hleft => exact h.serveUpdate hcall hleft
  | pause n call failures next hcall hleft => exact h.pause hcall hleft

theorem run (h : w.Consistent) (hr : Run w v) : v.Consistent := by
  induction hr with
  | refl => exact h
  | tail _ hs ih => exact ih.step hs

end Consistent

end Clientele

end GameFleet
