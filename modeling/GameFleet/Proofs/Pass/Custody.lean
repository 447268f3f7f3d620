import GameFleet.Proofs.Collection.Membership
import GameFleet.Proofs.Plane.Crew

/-!
# Who writes what

`Duty.May` says which requests a task makes in a state of its `Notes`, which are the objects
that it was shown. A pass over a collection writes the status of its collection, as it was
read from the store, and creates members of it only when it has found it in the cache. A pass
over an autoscaler makes the step that the members it has listed call for, on the collection as
the cache had it. Instances are updated as they were shown, and go on to be members of what they
were a member of, or of nothing. Other collections and instances are written by those who are
not under control only.

`Minds` says that a program keeps to this, with rules that follow how programs are built.
That every duty does is in `GameFleet.Proofs.Pass.Duties`.
-/

namespace GameFleet

/-! ## Notes -/

/-- The objects that a task was shown. -/
structure Notes where
  /-- Collections as they were looked up. -/
  looked : List Collection
  /-- Collections as they were read from the store. -/
  got : List Collection
  servers : List GameServer
  /-- The instances that were listed last, since a collection was looked up. -/
  listed : List GameServer

namespace Notes

def empty : Notes := ⟨[], [], [], []⟩

/-- The notes after an answer. -/
def after (s : Notes) : (request : Request) → request.Answer → Notes
  | .cached .collection _, .ok found => { s with looked := s.looked ++ found.toList, listed := [] }
  | .get .collection _, .ok found => { s with got := s.got ++ found.toList }
  | .cached .gameServer _, .ok found => { s with servers := s.servers ++ found.toList }
  | .get .gameServer _, .ok found => { s with servers := s.servers ++ found.toList }
  | .cachedList .gameServer _ _, .ok found => { s with listed := found }
  | _, _ => s

/-- The object was shown. -/
def Noted (s : Notes) : (kind : Kind) → kind.Obj → Prop
  | .collection, c => c ∈ s.got
  | .gameServer, g => g ∈ s.servers
  | _, _ => True

/-- The collection was looked up and found. -/
def Found (s : Notes) (key : Key) : Prop := ∃ c ∈ s.looked, Resource.key c = key

/-- The later notes have all that the earlier ones have. -/
structure Within (s t : Notes) : Prop where
  looked : s.looked ⊆ t.looked
  got : s.got ⊆ t.got
  servers : s.servers ⊆ t.servers

theorem Within.refl (s : Notes) : s.Within s := ⟨fun _ h => h, fun _ h => h, fun _ h => h⟩

theorem Within.trans {s t u : Notes} (h : s.Within t) (h' : t.Within u) : s.Within u :=
  ⟨fun _ hc => h'.looked (h.looked hc), fun _ hc => h'.got (h.got hc),
    fun _ hg => h'.servers (h.servers hg)⟩

theorem within_after (s : Notes) (request : Request) (answer : request.Answer) :
    s.Within (s.after request answer) := by
  unfold after
  split
  · exact ⟨List.subset_append_left _ _, fun _ h => h, fun _ h => h⟩
  · exact ⟨fun _ h => h, List.subset_append_left _ _, fun _ h => h⟩
  · exact ⟨fun _ h => h, fun _ h => h, List.subset_append_left _ _⟩
  · exact ⟨fun _ h => h, fun _ h => h, List.subset_append_left _ _⟩
  · exact ⟨fun _ h => h, fun _ h => h, fun _ h => h⟩
  · exact .refl s

theorem subset_append {α : Type} {l l' : List α} (h : l ⊆ l') (more : List α) :
    l ++ more ⊆ l' ++ more :=
  List.append_subset.2
    ⟨List.Subset.trans h (List.subset_append_left _ _), List.subset_append_right _ _⟩

theorem Within.after {s t : Notes} (h : s.Within t) (request : Request)
    (answer : request.Answer) : (s.after request answer).Within (t.after request answer) := by
  unfold Notes.after
  split
  · exact ⟨subset_append h.looked _, h.got, h.servers⟩
  · exact ⟨h.looked, subset_append h.got _, h.servers⟩
  · exact ⟨h.looked, h.got, subset_append h.servers _⟩
  · exact ⟨h.looked, h.got, subset_append h.servers _⟩
  · exact ⟨h.looked, h.got, h.servers⟩
  · exact h

theorem Within.noted {s t : Notes} (h : s.Within t) {kind : Kind} {a : kind.Obj}
    (ha : s.Noted kind a) : t.Noted kind a := by
  cases kind with
  | collection => exact h.got ha
  | gameServer => exact h.servers ha
  | pod => trivial
  | node => trivial

theorem noted_get (s : Notes) (kind : Kind) (key : Key) (a : kind.Obj) :
    (s.after (.get kind key) (.ok (some a))).Noted kind a := by
  cases kind with
  | collection => exact List.mem_append_right _ List.mem_cons_self
  | gameServer => exact List.mem_append_right _ List.mem_cons_self
  | pod => trivial
  | node => trivial

end Notes

/-! ## The contract -/

namespace Duty

/-- The collections that a task writes. -/
def UpdatesCollection (d : Duty) (s : Notes) (a : Collection) : Prop :=
  match d with
  | .pass _ .collection key => ∃ old ∈ s.got, Resource.key old = key ∧
      a.metadata = old.metadata ∧ a.spec = old.spec
  | .pass _ .autoscaler key => ∃ old ∈ s.looked, ∃ (auto : Autoscaler) (step : ScaleStep)
      (now : Time.Instant), Resource.key old = key ∧ Pass.isSteady old = true ∧
        old.activeAutoscaler? = some auto ∧ auto.decide s.listed = some step ∧
        a = old.scaled step now
  | .ask request => request = .update .collection a
  | _ => False

/-- The instances that a task writes. -/
def UpdatesServer (d : Duty) (s : Notes) (g : GameServer) : Prop :=
  (∃ old ∈ s.servers, Resource.key g = Resource.key old ∧
    Resource.version g = Resource.version old ∧
      (g.metadata = old.metadata ∨ g.collection? = none)) ∨
    d = .ask (.update .gameServer g)

/-- The instances that a task creates. -/
def CreatesServer (d : Duty) (s : Notes) (g : GameServer) : Prop :=
  match d with
  | .pass _ .collection key => s.Found key ∧ g.IsMember key
  | .ask request => request = .create .gameServer g
  | _ => False

/-- What a task may ask for. -/
def May (d : Duty) (s : Notes) : Request → Prop
  | .create .collection a => d = .ask (.create .collection a)
  | .update .collection a => d.UpdatesCollection s a
  | .delete .collection key => d = .ask (.delete .collection key)
  | .create .gameServer g => d.CreatesServer s g
  | .update .gameServer g => d.UpdatesServer s g
  | _ => True

end Duty

/-- Requests that anyone may make : they write no collection, and no instance but to delete
it. -/
def Request.Plain : Request → Prop
  | .create .collection _ => False
  | .update .collection _ => False
  | .delete .collection _ => False
  | .create .gameServer _ => False
  | .update .gameServer _ => False
  | _ => True

theorem Duty.may_of_plain {request : Request} (h : request.Plain) (d : Duty) (s : Notes) :
    d.May s request := by
  cases request with
  | create kind a => cases kind <;> first | exact h.elim | trivial
  | update kind a => cases kind <;> first | exact h.elim | trivial
  | delete kind key => cases kind <;> first | exact h.elim | trivial
  | _ => trivial

/-- What an answer tells of the key of an object. -/
def Request.Tells : (request : Request) → request.Answer → Prop
  | .cached _ key, .ok (some a) => Resource.key a = key
  | .get _ key, .ok (some a) => Resource.key a = key
  | .update _ a, .ok b => Resource.key b = Resource.key a
  | _, _ => True

def Duty.custody (d : Duty) : Contract Notes :=
  ⟨d.May, fun s request answer t => request.Tells answer ∧ t = s.after request answer⟩

theorem Request.Harmless.tells {request : Request} {answer : request.Answer}
    (h : request.Harmless answer) : request.Tells answer := by
  cases request with
  | cached kind key => cases answer with
    | ok found => exact h.elim
    | error e => trivial
  | get kind key => cases answer with
    | ok found => exact h.elim
    | error e => trivial
  | update kind a => cases answer with
    | ok b => exact h.elim
    | error e => trivial
  | _ => trivial

/-- What answers tell is so. -/
theorem World.Serves.tells {w v : World} {request : Request} {answer : request.Answer}
    (h : w.Serves request answer v) (hw : w.Recorded) : request.Tells answer := by
  cases h with
  | harmless h => exact h.tells
  | @cached kind key found h =>
    cases found with
    | none => trivial
    | some a => exact (h a rfl).1
  | @get kind key =>
    cases hget : (w.stores kind).get? key with
    | none => trivial
    | some a => exact (hw kind).sound.key_eq hget
  | update h =>
    obtain ⟨old, -, -, rfl, -⟩ := Store.update_eq_ok h
    exact Store.key_successor _ _ _
  | _ => trivial

/-! ## Rules -/

/-- The program keeps to its duty, when it begins with some notes or more. It does not lose any,
and ends as `post` says unless it fails. -/
def Minds {α ε : Type} (d : Duty) (s : Notes) (p : ExceptT ε Program α) (post : α → Prop) : Prop :=
  ∀ t, s.Within t →
    p.run.Keeps d.custody (Program.Ends (fun a u => post a ∧ s.Within u) fun _ _ => True) t

section

variable {α β ε : Type} {d : Duty} {s : Notes} {post : α → Prop}

theorem minds_pure {a : α} (h : post a) : Minds d s (pure a : ExceptT ε Program α) post :=
  fun _ ht => ⟨h, ht⟩

theorem minds_throw (e : ε) : Minds d s (throw e : ExceptT ε Program α) post :=
  fun _ _ => trivial

theorem Minds.bind {p : ExceptT ε Program α} {f : α → ExceptT ε Program β} {after : β → Prop}
    (h : Minds d s p post) (hf : ∀ a, post a → Minds d s (f a) after) :
    Minds d s (p >>= f) after :=
  fun t ht => (h t ht).bindExcept fun a u hu => hf a hu.1 u hu.2

/-- What was noted before is noted afterwards. -/
theorem Minds.weaken {p : ExceptT ε Program α} {more : Notes} (h : Minds d more p post)
    (hmore : s.Within more) {t : Notes} (ht : more.Within t) :
    p.run.Keeps d.custody (Program.Ends (fun a u => post a ∧ s.Within u) fun _ _ => True) t := by
  refine (h t ht).mono fun r u hr => ?_
  cases r with
  | ok a => exact ⟨hr.1, hmore.trans hr.2⟩
  | error e => trivial

end

namespace Pass

variable {α β : Type} {d : Duty} {s : Notes}

/-! ### Requests -/

/-- What a request is answered with is noted. -/
theorem minds_ask_bind {request : Request} {f : request.Answer → Pass β} {post : β → Prop}
    (hmay : ∀ t, s.Within t → d.May t request)
    (hf : ∀ answer, Minds d (s.after request answer) (f answer) post) :
    Minds d s (ask request >>= f) post := by
  refine fun t ht => ⟨hmay t ht, ?_⟩
  rintro answer u ⟨-, rfl⟩
  exact (hf answer).weaken (s.within_after request answer) (ht.after request answer)

theorem minds_ask (request : Request) (hmay : ∀ t, s.Within t → d.May t request) :
    Minds d s (ask request) fun _ => True := by
  refine fun t ht => ⟨hmay t ht, ?_⟩
  rintro answer u ⟨-, rfl⟩
  exact ⟨trivial, ht.trans (t.within_after request answer)⟩

theorem minds_ask_plain (request : Request) (h : request.Plain) :
    Minds d s (ask request) fun _ => True :=
  minds_ask request fun t _ => d.may_of_plain h t

theorem minds_record (type : EventType) (kind : Kind) (object : Key) (reason : Reason)
    (message : String) : Minds d s (record type kind object reason message) fun _ => True :=
  minds_ask_plain _ trivial

theorem minds_cached_bind {kind : Kind} {key : Key} {f : Option kind.Obj → Pass β}
    {post : β → Prop}
    (hf : ∀ found : Option kind.Obj, (∀ a, found = some a → Resource.key a = key) →
      Minds d (s.after (.cached kind key) (.ok found)) (f found) post) :
    Minds d s (cached kind key >>= f) post := by
  refine fun t ht => ⟨trivial, ?_⟩
  rintro answer u ⟨htells, rfl⟩
  cases answer with
  | ok found =>
    have hkey : ∀ a, found = some a → Resource.key a = key := by
      rintro a rfl
      exact htells
    exact (hf found hkey).weaken (s.within_after _ _) (ht.after _ _)
  | error e => trivial

/-- What a list of cached objects is answered with is noted. -/
theorem keeps_cachedList (kind : Kind) (ns : String) (selector : Selector) (t : Notes) :
    (cachedList kind ns selector).run.Keeps d.custody (Program.Ends (fun found u =>
      u = t.after (.cachedList kind ns selector) (.ok found)) fun _ _ => True) t := by
  refine ⟨trivial, fun answer u hu => ?_⟩
  cases answer with
  | ok found => exact hu.2
  | error e => trivial

theorem minds_cachedList (kind : Kind) (ns : String) (selector : Selector) :
    Minds d s (cachedList kind ns selector) fun _ => True := by
  refine fun t ht => (keeps_cachedList kind ns selector t).mono fun r u hr => ?_
  cases r with
  | ok found =>
    obtain rfl : u = _ := hr
    exact ⟨trivial, ht.trans (t.within_after _ _)⟩
  | error e => trivial

theorem minds_list (kind : Kind) (ns : String) (selector : Selector) :
    Minds d s (access (.list kind ns selector)) fun _ => True := by
  refine fun t ht => ⟨trivial, fun answer u hu => ?_⟩
  rw [hu.2]
  cases answer with
  | ok found => exact ⟨trivial, ht.trans (t.within_after _ _)⟩
  | error e => trivial

/-! ### Changes -/

/-- The task may change what it reads under a key. -/
def MayChange (d : Duty) (kind : Kind) (key : Key) (change : kind.Obj → Option kind.Obj) : Prop :=
  ∀ a b, Resource.key a = key → change a = some b → Resource.key b = key ∧
    ∀ t : Notes, t.Noted kind a → d.May t (.update kind b)

/-- A task makes a change that it may make. What it finds has the key, and is noted. -/
theorem keeps_modify {retry : Retry} {kind : Kind} {key : Key}
    {change : kind.Obj → Option kind.Obj} (h : MayChange d kind key change) {t : Notes}
    (ht : s.Within t) :
    (Access.modify retry kind key change).run.Keeps d.custody
      (Program.Ends (fun r u => (∀ a, r = some a → Resource.key a = key ∧ ∃ old, u.Noted kind old) ∧
        s.Within u) fun _ _ => True) t := by
  suffices hchanges : Access.Changes d.custody kind key change (fun u => s.Within u)
      (fun a u => s.Within u ∧ u.Noted kind a ∧ Resource.key a = key) _ from
    hchanges.keeps retry ht
  constructor
  case get => exact fun _ => trivial
  case missing =>
    rintro u _ hu ⟨-, rfl⟩
    exact ⟨fun a ha => (by cases ha), hu.trans (u.within_after _ _)⟩
  case found =>
    rintro u a _ hu ⟨hkey, rfl⟩
    exact ⟨hu.trans (u.within_after _ _), u.noted_get kind key a, hkey⟩
  case failed =>
    intro u e v hu hv
    rw [hv.2]
    exact ⟨trivial, fun _ => hu.trans (u.within_after _ _)⟩
  case left =>
    rintro a u ⟨hu, hnoted, hkey⟩ -
    exact ⟨fun b hb => ⟨Option.some.inj hb ▸ hkey, a, hnoted⟩, hu⟩
  case update =>
    rintro a b u ⟨-, hnoted, hkey⟩ hb
    exact (h a b hkey hb).2 u hnoted
  case written =>
    rintro a b u c v ⟨hu, hnoted, hkey⟩ hb ⟨htells, hv⟩
    rw [hv]
    have hwithin := u.within_after (.update kind b) (.ok c)
    refine ⟨fun c' hc' => ⟨?_, a, hwithin.noted hnoted⟩, hu.trans hwithin⟩
    obtain rfl := Option.some.inj hc'
    exact htells.trans (h a b hkey hb).1
  case refused =>
    rintro a b u e v ⟨hu, -, -⟩ - ⟨-, hv⟩
    rw [hv]
    exact ⟨trivial, fun _ => hu.trans (u.within_after _ _)⟩
  case pause => exact fun _ => trivial
  case paused =>
    rintro u failures v hu ⟨-, hv⟩
    rw [hv]
    exact hu.trans (u.within_after _ _)

theorem minds_modify {retry : Retry} {kind : Kind} {key : Key}
    {change : kind.Obj → Option kind.Obj} (h : MayChange d kind key change) :
    Minds d s (Access.modify retry kind key change)
      (fun r => ∀ a, r = some a → Resource.key a = key) := by
  refine fun t ht => (keeps_modify h ht).mono fun r u hr => ?_
  cases r with
  | ok found => exact ⟨fun a ha => (hr.1 a ha).1, hr.2⟩
  | error e => trivial

/-- An access, as part of a pass. -/
theorem minds_access {p : Access α} {post : α → Prop} (h : Minds d s p post) :
    Minds d s (access p) post :=
  fun t ht => keeps_access (h t ht)

/-- What comes after a change of a collection has read the collection, if there is one. -/
theorem minds_modifyCollection_bind {retry : Retry} {key : Key}
    {change : Collection → Option Collection} {f : Option Collection → Pass β} {post : β → Prop}
    (h : MayChange d .collection key change) (hnone : Minds d s (f none) post)
    (hsome : ∀ c old, Resource.key c = key →
      Minds d { s with got := old :: s.got } (f (some c)) post) :
    Minds d s (access (.modify retry .collection key change) >>= f) post := by
  intro t ht
  refine (keeps_access (keeps_modify h ht)).bindExcept fun r u hr => ?_
  obtain ⟨hfound, hu⟩ := hr
  cases r with
  | none => exact hnone u hu
  | some c =>
    obtain ⟨hkey, old, hold⟩ := hfound c rfl
    have hmore : s.Within { s with got := old :: s.got } :=
      ⟨fun _ hc => hc, List.subset_cons_self _ _, fun _ hg => hg⟩
    exact (hsome c old hkey).weaken hmore
      ⟨hu.looked, List.cons_subset.2 ⟨hold, hu.got⟩, hu.servers⟩

end Pass

end GameFleet
