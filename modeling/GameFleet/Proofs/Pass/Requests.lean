import GameFleet.Proofs.Pass.Deeds
import GameFleet.Proofs.Pass.Duties

/-!
# What passes ask for

`Pass.Only` says that a pass asks for requests of one sort only, whatever it is answered. So
passes over instances and autoscalers, reports and cleanups record no warnings
(`Duty.only_mute`), and a pass over a collection warns of that collection only
(`Pass.only_collection`). To make or detach members, or to deal with failed ones, a pass neither
warns of anything nor has to do with collections (`Request.Aside`) ; that makes no difference to
a contract which is about those (`Pass.Only.idle`).
-/

namespace GameFleet

open Program (Ends)

/-! ## Requests of one sort -/

/-- The contract of who asks for such requests only. -/
def Contract.only (allowed : Request → Prop) : Contract Unit :=
  .noting (fun _ _ => ()) (fun _ => allowed) fun _ x => x.request.Tells x.answer

namespace Pass

variable {α β σ : Type} {allowed : Request → Prop}

/-- The pass asks for such requests only, and ends as `post` says unless it fails. -/
def Only (allowed : Request → Prop) (p : Pass α) (post : α → Prop) : Prop :=
  p.run.Keeps (.only allowed) (Ends (fun a _ => post a) fun _ _ => True) ()

theorem only_pure {a : α} {post : α → Prop} (h : post a) : Only allowed (pure a) post := h

theorem only_throw (e : PassError) {post : α → Prop} : Only allowed (throw e) post := trivial

theorem Only.bind {p : Pass α} {f : α → Pass β} {mid : α → Prop} {post : β → Prop}
    (h : Only allowed p mid) (hf : ∀ a, mid a → Only allowed (f a) post) :
    Only allowed (p >>= f) post :=
  h.bindExcept fun a _ ha => hf a ha

theorem Only.mono {more : Request → Prop} {p : Pass α} {post : α → Prop}
    (h : Only allowed p post) (hmore : ∀ request, allowed request → more request) :
    Only more p post := by
  unfold Only at h ⊢
  generalize p.run = q at h ⊢
  induction q with
  | done r => exact h
  | call request next ih =>
    exact ⟨hmore request h.1, fun answer _ ht => ih answer (h.2 answer () ht)⟩

/-- Requests that make no difference to a contract leave it where it was. -/
theorem Only.idle {C : Contract σ} {p : Pass α} {post : α → Prop} {s : σ}
    (h : Only allowed p post) (hignores : ∀ request, allowed request → C.Ignores s request)
    (htells : ∀ {request answer t}, C.next s request answer t → request.Tells answer) :
    p.run.Keeps C (Ends (fun _ t => t = s) fun _ t => t = s) s := by
  unfold Only at h
  generalize p.run = q at h ⊢
  induction q with
  | done r => cases r <;> rfl
  | call request next ih =>
    have hsame := hignores request h.1
    refine ⟨hsame.may, fun answer t ht => ?_⟩
    rw [hsame.next answer t ht]
    exact ih answer (h.2 answer () ⟨htells ht, rfl⟩)

theorem only_forgive (forgiven : Bool) (e : PassError) :
    Only allowed (if forgiven then return () else throw e : Pass Unit) fun _ => True := by
  split
  · exact only_pure trivial
  · exact only_throw e

theorem only_ask (request : Request) (h : allowed request) :
    Only allowed (ask request) fun _ => True :=
  ⟨h, fun _ _ _ => trivial⟩

theorem only_cached {kind : Kind} {key : Key} (h : allowed (.cached kind key)) :
    Only allowed (cached kind key) fun found => ∀ a, found = some a → Resource.key a = key := by
  refine ⟨h, fun answer _ hanswer => ?_⟩
  cases answer with
  | error e => trivial
  | ok found =>
    rintro a rfl
    exact hanswer.1

theorem only_cachedList {kind : Kind} {ns : String} {selector : Selector}
    (h : allowed (.cachedList kind ns selector)) :
    Only allowed (cachedList kind ns selector) fun _ => True :=
  ⟨h, fun answer _ _ => by cases answer <;> trivial⟩

theorem only_list {kind : Kind} {ns : String} {selector : Selector}
    (h : allowed (.list kind ns selector)) :
    Only allowed (access (.list kind ns selector)) fun _ => True :=
  ⟨h, fun answer _ _ => by cases answer <;> trivial⟩

/-- What a change comes to has the key, if the change keeps it. -/
theorem keeps_modify_only {retry : Retry} {kind : Kind} {key : Key}
    {change : kind.Obj → Option kind.Obj} (hget : allowed (.get kind key))
    (hupdate : ∀ a, allowed (.update kind a)) (hpause : ∀ failures, allowed (.pause failures)) :
    (Access.modify retry kind key change).run.Keeps (.only allowed)
      (Ends (fun r _ => (∀ a b, change a = some b → Resource.key b = Resource.key a) →
        ∀ a, r = some a → Resource.key a = key) fun _ _ => True) () := by
  suffices hchanges : Access.Changes (.only allowed) kind key change (fun _ => True)
      (fun a _ => Resource.key a = key) _ from hchanges.keeps retry trivial
  constructor
  case get => exact fun _ => hget
  case missing => exact fun _ _ _ a ha => by cases ha
  case found => exact fun _ h => h.1
  case failed => exact fun _ _ => ⟨trivial, fun _ => trivial⟩
  case left =>
    rintro a _ hkey - - b hb
    exact Option.some.inj hb ▸ hkey
  case update => exact fun _ _ => hupdate _
  case written =>
    rintro a b _ c _ hkey hb ⟨htells, -⟩ hkeeps c' hc'
    obtain rfl := Option.some.inj hc'
    exact htells.trans ((hkeeps a b hb).trans hkey)
  case refused => exact fun _ _ _ => ⟨trivial, fun _ => trivial⟩
  case pause => exact fun _ => hpause _
  case paused => exact fun _ _ => trivial

theorem only_modify {retry : Retry} {kind : Kind} {key : Key}
    {change : kind.Obj → Option kind.Obj} (hget : allowed (.get kind key))
    (hupdate : ∀ a, allowed (.update kind a)) (hpause : ∀ failures, allowed (.pause failures)) :
    Only allowed (access (.modify retry kind key change)) fun r =>
      (∀ a b, change a = some b → Resource.key b = Resource.key a) →
        ∀ a, r = some a → Resource.key a = key :=
  keeps_access (keeps_modify_only hget hupdate hpause)

theorem only_release_throw {owner : Key} {ports : List Port} (h : allowed (.release owner ports))
    (e : PassError) {post : α → Prop} :
    Only allowed (release owner ports >>= fun _ => (throw e : Pass α)) post := by
  have hrelease : Only allowed (release owner ports) fun _ => True :=
    (only_ask _ h).bind fun _ _ => only_pure trivial
  exact hrelease.bind fun _ _ => only_throw e

theorem only_allocate {owner : Key} (hallocate : allowed (.allocate owner))
    (hrelease : ∀ ports, allowed (.release owner ports)) (n : Nat) (taken : List Port) :
    Only allowed (allocate owner n taken) fun _ => True := by
  induction n generalizing taken with
  | zero => exact only_pure trivial
  | succ n ih =>
    refine (only_ask _ hallocate).bind fun answer _ => ?_
    cases answer with
    | ok port => exact ih (taken ++ [port])
    | error cause => exact only_release_throw (hrelease taken) _

/-! ## Requests that warn of nothing -/

end Pass

namespace Request

/-- No warning is recorded. -/
def Mute : Request → Prop
  | .record event => event.type = .normal
  | _ => True

/-- Warnings are about objects of this key. -/
def WarnsOf (key : Key) : Request → Prop
  | .record event => event.type = .normal ∨ event.object = key
  | _ => True

/-- No warning is recorded, and collections are neither read nor written. -/
def Aside : Request → Prop
  | .get .collection _ => False
  | .create .collection _ => False
  | .update .collection _ => False
  | .delete .collection _ => False
  | .record event => event.type = .normal
  | _ => True

theorem Aside.warnsOf {request : Request} (h : request.Aside) (key : Key) :
    request.WarnsOf key := by
  cases request with
  | record event => exact .inl h
  | _ => trivial

end Request

namespace Pass

variable {context : PassContext}

/-! ### Passes over instances -/

theorem only_deleteDrained (key : Key) : Only Request.Mute (deleteDrained key) fun _ => True := by
  refine (only_ask _ trivial).bind fun answer _ => ?_
  cases answer with
  | ok _ => exact only_ask _ rfl
  | error cause => exact only_forgive _ _

theorem only_assignHostPorts (g : GameServer) :
    Only Request.Mute (assignHostPorts g) fun _ => True := by
  refine (only_allocate trivial (fun _ => trivial) _ _).bind fun taken _ => ?_
  refine (only_ask _ trivial).bind fun answer _ => ?_
  cases answer with
  | ok _ => exact only_pure trivial
  | error cause => exact only_release_throw trivial _

theorem only_createPod (g : GameServer) :
    Only Request.Mute (createPod context g) fun _ => True := by
  unfold createPod
  extract_lets rest
  have hrest (g' : GameServer) : Only Request.Mute (rest g') fun _ => True := by
    refine (only_ask _ trivial).bind fun answer _ => ?_
    cases answer with
    | ok _ => exact only_ask _ rfl
    | error cause => exact only_forgive _ _
  split
  · exact (only_assignHostPorts g).bind fun g' _ => hrest g'
  · exact hrest g

theorem only_observationOf (pod : Pod) : Only Request.Mute (observationOf pod) fun _ => True := by
  unfold observationOf
  split
  · exact only_pure trivial
  · next node _ =>
    have haddress : Only Request.Mute (addressOf node) fun _ => True := by
      refine (only_cached trivial).bind fun found _ => ?_
      cases found with
      | none => exact only_throw _
      | some found =>
        simp only
        split
        · exact only_throw _
        · exact only_pure trivial
    exact haddress.bind fun _ _ => only_pure trivial

theorem only_observePod (g : GameServer) (pod : Pod) :
    Only Request.Mute (observePod context g pod) fun _ => True := by
  refine (only_observationOf pod).bind fun observation _ => ?_
  split
  · exact only_pure trivial
  · exact (only_modify trivial (fun _ => trivial) fun _ => trivial).bind fun _ _ =>
      only_pure trivial

theorem only_gameServer (key : Key) :
    Only Request.Mute (Pass.gameServer context key) fun _ => True := by
  refine (only_cached trivial).bind fun found _ => ?_
  cases found with
  | none => exact only_pure trivial
  | some g =>
    simp only
    split
    · exact only_pure trivial
    split
    · exact only_deleteDrained key
    refine (only_cachedList trivial).bind fun pods _ => ?_
    split
    · exact only_createPod g
    · exact only_observePod g _

/-! ### Passes over autoscalers -/

theorem only_takeStep (c : Collection) (key : Key) (step : ScaleStep) (now : Time.Instant) :
    Only Request.Mute (takeStep c key step now) fun _ => True := by
  refine ⟨trivial, fun answer _ _ => ?_⟩
  cases answer with
  | error e => trivial
  | ok updated => exact ⟨rfl, fun _ _ _ => trivial⟩

theorem only_autoscaler (key : Key) : Only Request.Mute (Pass.autoscaler key) fun _ => True := by
  refine (only_cached trivial).bind fun found _ => ?_
  cases found with
  | none => exact only_pure trivial
  | some c =>
    simp only
    split
    · exact only_pure trivial
    cases c.activeAutoscaler? with
    | none => exact only_pure trivial
    | some a =>
      simp only
      split
      · exact only_pure trivial
      refine (only_ask .now trivial).bind fun now _ => ?_
      split
      · exact only_pure trivial
      refine (only_cachedList trivial).bind fun members _ => ?_
      cases a.decide members with
      | none => exact only_pure trivial
      | some step => exact (only_takeStep c key step now).bind fun _ _ => only_pure trivial

/-! ### Passes over collections -/

theorem only_createMember (c : Collection) : Only Request.Aside (createMember c) fun _ => True := by
  refine (only_ask (.suffix Naming.suffixLength) trivial).bind fun suffix _ => ?_
  refine (only_allocate trivial (fun _ => trivial) _ _).bind fun taken _ => ?_
  refine (only_ask _ trivial).bind fun answer _ => ?_
  cases answer with
  | ok _ => exact only_pure trivial
  | error cause => exact only_release_throw trivial _

theorem only_createMembers (c : Collection) (n : Nat) :
    Only Request.Aside (createMembers c n) fun _ => True := by
  induction n with
  | zero => exact only_pure trivial
  | succ n ih => exact (only_createMember c).bind fun _ _ => ih

theorem only_detachAll (collection : String) (keys : List Key) :
    Only Request.Aside (detachAll context collection keys) fun _ => True := by
  induction keys with
  | nil => exact only_pure trivial
  | cons key rest ih =>
    exact (only_modify trivial (fun _ => trivial) fun _ => trivial).bind fun _ _ => ih

theorem only_scale (c : Collection) (members : List GameServer) :
    Only Request.Aside (scale context c members) fun _ => True := by
  unfold scale
  extract_lets desired
  split
  · exact (only_createMembers c _).bind fun _ _ => only_ask _ rfl
  split
  · refine (only_ask (.pick _ _) trivial).bind fun picked _ => ?_
    exact (only_detachAll _ _).bind fun _ _ => only_ask _ rfl
  · exact only_ask _ rfl

theorem only_handleFailure (c : Collection) (failed : Key) :
    Only Request.Aside (handleFailure context c failed) fun _ => True := by
  unfold handleFailure
  cases c.spec.failBehavior with
  | remove =>
    exact (only_modify trivial (fun _ => trivial) fun _ => trivial).bind fun _ _ =>
      only_pure trivial
  | delete =>
    refine (only_ask _ trivial).bind fun answer _ => ?_
    cases answer with
    | ok _ => exact only_pure trivial
    | error cause =>
      simp only
      split
      · exact only_pure trivial
      · exact only_throw _

theorem only_handleAll (c : Collection) (keys : List Key) (handled : Nat) :
    Only Request.Aside (handleAll context c keys handled) fun _ => True := by
  induction keys generalizing handled with
  | nil => exact only_pure trivial
  | cons failed rest ih => exact (only_handleFailure c failed).bind fun _ _ => ih _

theorem only_handleFailures {c : Collection} {key : Key} (hkey : Resource.key c = key)
    (failed : List Key) :
    Only (Request.WarnsOf key) (handleFailures context c failed) fun _ => True := by
  unfold handleFailures
  split
  · refine (only_modify trivial (fun _ => trivial) fun _ => trivial).bind fun updated _ => ?_
    split
    · exact only_ask _ (.inr hkey)
    · exact only_pure trivial
  · refine ((only_handleAll c failed 0).mono fun _ h => h.warnsOf key).bind fun handled _ => ?_
    split
    · exact only_pure trivial
    · refine (only_modify trivial (fun _ => trivial) fun _ => trivial).bind fun _ _ => ?_
      exact only_ask _ (.inr hkey)

/-- A pass over a collection warns of that collection only. -/
theorem only_collection (key : Key) :
    Only (Request.WarnsOf key) (Pass.collection context key) fun _ => True := by
  refine (only_cached trivial).bind fun found _ => ?_
  cases found with
  | none => exact only_pure trivial
  | some seen =>
    simp only
    split
    · exact only_pure trivial
    refine (only_list trivial).bind fun members _ => ?_
    refine (only_modify trivial (fun _ => trivial) fun _ => trivial).bind fun updated hupdated => ?_
    cases updated with
    | none => exact only_pure trivial
    | some c =>
      have hkeeps (a b : Collection) (hb : (Summary.of members).change a = some b) :
          Resource.key b = Resource.key a := congrArg Meta.key (Summary.change_keeps hb).1
      simp only
      split
      · exact only_handleFailures (hupdated hkeeps c rfl) _
      split
      · exact only_pure trivial
      · exact (only_scale c members).mono fun _ h => h.warnsOf key

end Pass

/-! ## Duties -/

namespace Cleanup

theorem only_deleteAll (kind : Kind) (keys : List Key) :
    (deleteAll kind keys).Keeps (.only Request.Mute) (fun _ _ => True) () := by
  induction keys with
  | nil => trivial
  | cons key rest ih => exact ⟨trivial, fun _ _ _ => ih⟩

theorem only_deleteOwned (kind : Kind) (ns : String) (selector : Selector) (owner : Kind)
    (name : String) :
    (deleteOwned kind ns selector owner name).Keeps (.only Request.Mute) (fun _ _ => True) () := by
  refine ⟨trivial, fun answer _ _ => ?_⟩
  cases answer with
  | error e => trivial
  | ok found => exact only_deleteAll kind _

end Cleanup

namespace Duty

/-- The duty is a pass over a collection, or not under control. -/
def MayWarn (d : Duty) : Prop := (∃ key, d.IsPassOver key) ∨ ∃ request, d = .ask request

/-- Nobody else records warnings. -/
theorem only_mute {d : Duty} (h : ¬d.MayWarn) :
    d.program.Keeps (.only Request.Mute) (fun _ _ => True) () := by
  cases d with
  | pass context r key =>
    cases r with
    | gameServer => exact Program.Keeps.bind (Pass.only_gameServer key) fun _ _ _ => trivial
    | collection => exact absurd (.inl ⟨key, context, rfl⟩) h
    | autoscaler =>
      have hpass : Pass.Only Request.Mute (Reconciler.pass context .autoscaler key)
          fun _ => True := (Pass.only_autoscaler key).bind fun _ _ => Pass.only_pure trivial
      exact Program.Keeps.bind hpass fun _ _ _ => trivial
  | report retry key f =>
    have hreport : (Report.change retry key f).run.Keeps (.only Request.Mute)
        (Ends (fun _ _ => True) fun _ _ => True) () := by
      refine (Pass.keeps_modify_only trivial (fun _ => trivial) fun _ => trivial).bindExcept ?_
      intro found _ _
      cases found <;> trivial
    exact hreport.bind fun _ _ _ => trivial
  | cleanUp g => exact ⟨trivial, fun _ _ _ => Cleanup.only_deleteOwned _ _ _ _ _⟩
  | release c => exact Cleanup.only_deleteOwned _ _ _ _ _
  | ask request => exact absurd (.inr ⟨request, rfl⟩) h

/-- A pass over a collection warns of that collection only. -/
theorem only_warnsOf {d : Duty} {key : Key} (h : d.IsPassOver key) :
    d.program.Keeps (.only (Request.WarnsOf key)) (fun _ _ => True) () := by
  obtain ⟨context, rfl⟩ := h
  exact Program.Keeps.bind (Pass.only_collection key) fun _ _ _ => trivial

end Duty

end GameFleet
