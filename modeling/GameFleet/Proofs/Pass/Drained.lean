import GameFleet.Plane.Sample
import GameFleet.Proofs.Collection.Course

/-!
# Instances that are drained

A pass over an instance deletes it if it was drained when the cache had it, and does not look
again. So the instance that goes has no players if no change has roused it since the copy in the
cache was stored (`Chronicle.drained_of_run`). Passes and cleanups rouse none that is stored : that
is up to the reports of game servers, to operators, and to who makes another instance of its name
(`Chronicle.rousing_of_run`). A player who comes in that time is deleted with the instance
(`Chronicle.roused_deleted`).
-/

namespace GameFleet

/-! ## Changes that rouse -/

/-- The change leaves an instance under the key that is not drained, and has found none there that
was not. -/
def Change.Rouses (key : Key) (c : Change GameServer) : Prop :=
  ∃ g, c.after? = some g ∧ Resource.key g = key ∧ g.isDrained = false ∧
    ∀ old, c.before? = some old → old.isDrained = true

/-- What is stored under the key is drained. -/
def Store.DrainedAt (s : Store GameServer) (key : Key) : Prop :=
  ∀ g, s.get? key = some g → g.isDrained = true

/-- To rouse an instance is to break the condition that it is drained. -/
theorem Change.Breaks.rouses {key : Key} {c : Change GameServer}
    (h : c.Breaks (fun g => g.isDrained = true) key) : c.Rouses key := by
  obtain ⟨g, hafter, hkey, hawake, hbefore⟩ := h
  exact ⟨g, hafter, hkey, by simpa using hawake, hbefore⟩

/-- No change has roused the instance since this copy of it was stored. -/
def World.Rests (w : World) (seen : GameServer) : Prop :=
  ∃ n, n ≤ (w.logs .gameServer).length ∧
    (Store.past (w.logs .gameServer) n).get? (Resource.key seen) = some seen ∧
      ∀ i c, n ≤ i → (w.logs .gameServer)[i]? = some c → ¬c.Rouses (Resource.key seen)

theorem World.Rests.drained {w : World} {seen : GameServer} (hw : w.Recorded) (h : w.Rests seen)
    (hseen : seen.isDrained = true) :
    (w.stores .gameServer).DrainedAt (Resource.key seen) := by
  obtain ⟨n, hn, hget, hrests⟩ := h
  have hthen : (Store.past (w.logs .gameServer) n).DrainedAt (Resource.key seen) := by
    intro g hg
    rwa [← Option.some.inj (hget.symm.trans hg)]
  rw [← (hw .gameServer).past_eq]
  exact Store.HoldsAt.past (hw .gameServer).legal hthen hn le_rfl fun i c hi hc hbreaks =>
    hrests i c hi hc hbreaks.rouses

/-! ## The pass of an instance -/

/-- What a pass over an instance was shown of instances. -/
structure Inspection where
  /-- The instance as the cache had it. -/
  seen : Option GameServer
  /-- The instance as it was read last from the store. -/
  read : Option GameServer

namespace Inspection

def start : Inspection := ⟨none, none⟩

def after (s : Inspection) : Exchange → Inspection
  | ⟨.cached .gameServer _, .ok found⟩ => { s with seen := found }
  | ⟨.get .gameServer _, .ok found⟩ => { s with read := found }
  | _ => s

/-- The inspection with these exchanges. -/
def of (past : List Exchange) : Inspection := past.foldl after start

/-- The instance was shown. -/
def Shows (s : Inspection) (g : GameServer) : Prop := s.seen = some g ∨ s.read = some g

/-- What a pass asks for : it deletes what it has seen drained, and writes what it was shown as
drained as it was. -/
def May (s : Inspection) : Request → Prop
  | .create .gameServer _ => False
  | .update .gameServer g => ∃ old, s.Shows old ∧ g.metadata = old.metadata ∧
      g.isDrained = old.isDrained
  | .delete .gameServer k => ∃ g, s.seen = some g ∧ Resource.key g = k ∧ g.isDrained = true
  | _ => True

def contract : Contract Inspection := .noting after May fun _ x => x.Possible

open Program (Ends)

variable {s : Inspection} {context : PassContext} {key : Key} {g : GameServer}

theorem ignores_allocate (owner : Key) : contract.Ignores s (.allocate owner) :=
  ⟨trivial, fun _ _ h => h.2⟩

theorem ignores_release (owner : Key) (ports : List Port) :
    contract.Ignores s (.release owner ports) :=
  ⟨trivial, fun _ _ h => h.2⟩

/-- A program that asks for what a pass may. -/
def Heeds {α : Type} (p : Pass α) (s : Inspection) : Prop :=
  p.run.Keeps contract (Ends (fun _ _ => True) fun _ _ => True) s

theorem heeds_record {type : EventType} {kind : Kind} {object : Key} {reason : Reason}
    {message : String} : Heeds (Pass.record type kind object reason message) s :=
  ⟨trivial, fun _ _ _ => trivial⟩

theorem heeds_cached (kind : Kind) (key : Key) : Heeds (Pass.cached kind key) s :=
  ⟨trivial, fun answer _ _ => by cases answer <;> trivial⟩

theorem keeps_pods {ns : String} {selector : Selector} :
    (Pass.cachedList .pod ns selector).run.Keeps contract
      (Ends (fun _ t => t = s) fun _ _ => True) s := by
  refine ⟨trivial, fun answer t ht => ?_⟩
  cases answer with
  | ok pods => exact ht.2
  | error e => trivial

theorem heeds_forgive (forgiven : Bool) (e : PassError) :
    Heeds (if forgiven then return () else throw e : Pass Unit) s := by
  split <;> trivial

theorem heeds_deleteDrained (hseen : s.seen = some g) (hkey : Resource.key g = key)
    (hdrained : g.isDrained = true) : Heeds (Pass.deleteDrained key) s := by
  refine ⟨⟨g, hseen, hkey, hdrained⟩, fun answer t _ => ?_⟩
  cases answer with
  | ok u => exact heeds_record
  | error cause => exact heeds_forgive cause.isNotFound _

theorem heeds_assignHostPorts (hseen : s.seen = some g) : Heeds (Pass.assignHostPorts g) s := by
  refine (Pass.keeps_allocate (ignores_allocate _) (ignores_release _)
    (fun _ => trivial) _ _).bindExcept fun taken t ht => ?_
  subst ht
  refine ⟨⟨g, .inl hseen, rfl, rfl⟩, fun answer u _ => ?_⟩
  cases answer with
  | ok updated => trivial
  | error cause => exact Pass.keeps_release_throw (ignores_release _ _) trivial

theorem heeds_createPod (hseen : s.seen = some g) : Heeds (Pass.createPod context g) s := by
  unfold Pass.createPod
  extract_lets rest
  have hrest (g' : GameServer) (t : Inspection) : Heeds (rest g') t := by
    refine ⟨trivial, fun answer u _ => ?_⟩
    cases answer with
    | ok pod => exact heeds_record
    | error cause => exact heeds_forgive cause.isAlreadyExists _
  split
  · exact (heeds_assignHostPorts hseen).bindExcept fun g' t _ => hrest g' t
  · exact hrest g s

theorem heeds_observationOf (pod : Pod) : Heeds (Pass.observationOf pod) s := by
  unfold Pass.observationOf
  split
  · trivial
  · next node _ =>
    have haddress : Heeds (Pass.addressOf node) s := by
      refine (heeds_cached .node _).bindExcept fun found t _ => ?_
      cases found with
      | none => trivial
      | some found =>
        simp only
        split <;> trivial
    exact haddress.bindExcept fun address t _ => trivial

/-- What is observed of a pod does not tell whether the instance is drained. -/
theorem drained_of_change {o : Pass.Observation} {g' : GameServer} (h : o.change g = some g') :
    g'.metadata = g.metadata ∧ g'.isDrained = g.isDrained := by
  rw [Pass.Observation.eq_of_change h]
  exact ⟨rfl, rfl⟩

theorem heeds_observe (retry : Retry) (o : Pass.Observation) :
    Heeds (Pass.access (.modify retry .gameServer key o.change)) s := by
  suffices hchanges : Access.Changes contract .gameServer key o.change (fun _ => True)
      (fun g t => t.read = some g) (Ends (fun _ _ => True) fun _ _ => True) from
    Pass.keeps_access (hchanges.keeps retry trivial)
  constructor
  case get => exact fun _ => trivial
  case missing => exact fun _ _ => trivial
  case found =>
    rintro t g _ - ⟨-, rfl⟩
    rfl
  case failed => exact fun _ _ => ⟨trivial, fun _ => trivial⟩
  case left => exact fun _ _ => trivial
  case update =>
    intro g g' t hread hg'
    obtain ⟨hmeta, hdrained⟩ := drained_of_change hg'
    exact ⟨g, .inr hread, hmeta, hdrained⟩
  case written => exact fun _ _ _ => trivial
  case refused => exact fun _ _ _ => ⟨trivial, fun _ => trivial⟩
  case pause => exact fun _ => trivial
  case paused => exact fun _ _ => trivial

theorem heeds_observePod (pod : Pod) : Heeds (Pass.observePod context g pod) s := by
  refine (heeds_observationOf pod).bindExcept fun o t _ => ?_
  split
  · trivial
  · exact (heeds_observe context.retry o).bindExcept fun _ _ _ => trivial

theorem heeds_look : (Pass.cached .gameServer key).run.Keeps contract
    (Ends (fun found t => t.seen = found ∧ ∀ g, found = some g → Resource.key g = key)
      fun _ _ => True) start := by
  refine ⟨trivial, ?_⟩
  rintro answer _ ⟨hpossible, rfl⟩
  cases answer with
  | ok found =>
    refine ⟨rfl, fun g hg => ?_⟩
    subst hg
    exact hpossible.tells
  | error e => trivial

/-- A pass over an instance deletes it only if it has seen it drained. -/
theorem heeds_gameServer : Heeds (Pass.gameServer context key) start := by
  refine heeds_look.bindExcept ?_
  rintro found t ⟨hseen, hkey⟩
  cases found with
  | none => trivial
  | some g =>
    simp only
    split
    · trivial
    split
    · next hdrained => exact heeds_deleteDrained hseen (hkey g rfl) hdrained
    refine keeps_pods.bindExcept fun pods u hu => ?_
    subst hu
    split
    · exact heeds_createPod hseen
    · exact heeds_observePod _

/-! ### Deeds -/

theorem of_concat (past : List Exchange) (x : Exchange) : of (past ++ [x]) = (of past).after x := by
  simp [of]

theorem shows_after {x : Exchange} (h : (s.after x).Shows g) :
    s.Shows g ∨ (∃ k, x = ⟨.cached .gameServer k, .ok (some g)⟩) ∨
      ∃ k, x = ⟨.get .gameServer k, .ok (some g)⟩ := by
  unfold after at h
  split at h
  · next k found =>
    rcases h with h | h
    · exact .inr (.inl ⟨k, by rw [← h]⟩)
    · exact .inl (.inr h)
  · next k found =>
    rcases h with h | h
    · exact .inl (.inl h)
    · exact .inr (.inr ⟨k, by rw [← h]⟩)
  · exact .inl h

/-- What was shown was stored at some moment. -/
theorem past_of_shows {w : World} {past : List Exchange} (hshown : ∀ x ∈ past, x.Shown w)
    (h : (of past).Shows g) : w.Past .gameServer g := by
  induction past using List.reverseRecOn with
  | nil => rcases h with h | h <;> cases h
  | append_singleton past x ih =>
    rw [of_concat] at h
    rcases shows_after h with h | ⟨k, rfl⟩ | ⟨k, rfl⟩
    · exact ih (fun y hy => hshown y (List.mem_append_left _ hy)) h
    · exact (hshown _ (List.mem_append_right _ List.mem_cons_self)).2
    · exact (hshown _ (List.mem_append_right _ List.mem_cons_self)).2

end Inspection

/-! ## Who writes no instances -/

/-- The request updates no instance. -/
def Request.Abstains : Request → Prop
  | .update .gameServer _ => False
  | _ => True

/-- The contract of who updates no instance, whatever the answers are. -/
def Contract.abstaining : Contract Unit :=
  .noting (fun _ _ => ()) (fun _ => Request.Abstains) fun _ _ => True

namespace Cleanup

theorem abstains_deleteAll (kind : Kind) (keys : List Key) :
    (deleteAll kind keys).Keeps .abstaining (fun _ _ => True) () := by
  induction keys with
  | nil => trivial
  | cons key rest ih => exact ⟨trivial, fun _ _ _ => ih⟩

theorem abstains_deleteOwned (kind : Kind) (ns : String) (selector : Selector) (owner : Kind)
    (name : String) :
    (deleteOwned kind ns selector owner name).Keeps .abstaining (fun _ _ => True) () := by
  refine ⟨trivial, fun answer _ _ => ?_⟩
  cases answer with
  | error e => trivial
  | ok found => exact abstains_deleteAll kind _

end Cleanup

namespace Pass

variable {α β : Type}

/-- The pass updates no instance. -/
def Abstains (p : Pass α) : Prop :=
  p.run.Keeps .abstaining (Program.Ends (fun _ _ => True) fun _ _ => True) ()

theorem abstains_pure (a : α) : (pure a : Pass α).Abstains := trivial

theorem Abstains.bind {p : Pass α} {f : α → Pass β} (h : p.Abstains) (hf : ∀ a, (f a).Abstains) :
    (p >>= f).Abstains :=
  h.bindExcept fun a _ _ => hf a

theorem abstains_ask {request : Request} (h : request.Abstains) : (ask request).Abstains :=
  ⟨h, fun _ _ _ => trivial⟩

theorem abstains_cached (kind : Kind) (key : Key) : (cached kind key).Abstains :=
  ⟨trivial, fun answer _ _ => by cases answer <;> trivial⟩

theorem abstains_cachedList (kind : Kind) (ns : String) (selector : Selector) :
    (cachedList kind ns selector).Abstains :=
  ⟨trivial, fun answer _ _ => by cases answer <;> trivial⟩

theorem abstains_now : (ask .now).Abstains := abstains_ask trivial

theorem abstains_takeStep (c : Collection) (key : Key) (step : ScaleStep) (now : Time.Instant) :
    (takeStep c key step now).Abstains := by
  refine ⟨trivial, fun answer _ _ => ?_⟩
  cases answer with
  | error e => trivial
  | ok c => exact ⟨trivial, fun _ _ _ => trivial⟩

theorem abstains_autoscaler (key : Key) : (Pass.autoscaler key).Abstains := by
  refine (abstains_cached .collection key).bind fun found => ?_
  cases found with
  | none => exact abstains_pure none
  | some c =>
    simp only
    split
    · exact abstains_pure none
    cases c.activeAutoscaler? with
    | none => exact abstains_pure none
    | some a =>
      simp only
      split
      · exact abstains_pure none
      refine abstains_now.bind fun now => ?_
      split
      · exact abstains_pure none
      refine (abstains_cachedList _ _ _).bind fun members => ?_
      cases a.decide members with
      | none => exact abstains_pure none
      | some step => exact (abstains_takeStep c key step now).bind fun _ => abstains_pure _

end Pass

namespace Duty

/-- The duty is a pass over an instance. -/
def IsInspection (d : Duty) : Prop := ∃ context key, d = .pass context .gameServer key

/-- Who reports, or is not under control. -/
def IsForeign : Duty → Prop
  | .report _ _ _ => True
  | .ask _ => True
  | _ => False

/-- Besides passes over instances and collections no one who is under control updates instances. -/
theorem keeps_abstaining {d : Duty} (hforeign : ¬d.IsForeign) (hinspection : ¬d.IsInspection)
    (hcollection : ∀ key, ¬d.IsPassOver key) :
    d.program.Keeps .abstaining (fun _ _ => True) () := by
  cases d with
  | pass context r key =>
    cases r with
    | gameServer => exact absurd ⟨context, key, rfl⟩ hinspection
    | collection => exact absurd ⟨context, rfl⟩ (hcollection key)
    | autoscaler =>
      have hpass : Pass.Abstains (Reconciler.pass context .autoscaler key) :=
        (Pass.abstains_autoscaler key).bind fun _ => Pass.abstains_pure ()
      exact Program.Keeps.bind hpass fun _ _ _ => trivial
  | report retry key f => exact absurd trivial hforeign
  | cleanUp g => exact ⟨trivial, fun _ _ _ => Cleanup.abstains_deleteOwned _ _ _ _ _⟩
  | release c => exact Cleanup.abstains_deleteOwned _ _ _ _ _
  | ask request => exact absurd trivial hforeign

end Duty

theorem GameServer.isDrained_iff {g : GameServer} : g.isDrained = true ↔
    g.status.markedForDeletion = true ∧ g.status.activePlayers = 0 := by
  simp [isDrained]

/-- Who leaves a collection stays drained. -/
theorem Pass.drained_detach {collection : String} {g g' : GameServer}
    (h : detach collection g = some g') : g'.isDrained = g.isDrained := by
  unfold detach at h
  split at h
  · cases h
    rfl
  · cases h

theorem Pass.drained_detachMarked {collection : String} {g g' : GameServer}
    (h : detachMarked collection g = some g') (hg : g.isDrained = true) : g'.isDrained = true := by
  obtain ⟨detached, hdetach, rfl⟩ := Option.map_eq_some_iff.1 h
  rw [← drained_detach hdetach, GameServer.isDrained_iff] at hg
  exact GameServer.isDrained_iff.2 ⟨rfl, hg.2⟩

/-! ## Deeds -/

namespace Chronicle

variable {deeds : List Deed} {d : Deed}

theorem Happened.may_inspection (h : Happened deeds d)
    (hpossible : FairTo deeds (fun _ x => x.Possible) d.duty) (hpass : d.duty.IsInspection) :
    (Inspection.of d.past).May d.exchange.request := by
  have hkeeps : d.duty.program.Keeps Inspection.contract (fun _ _ => True) Inspection.start := by
    obtain ⟨context, key, hduty⟩ := hpass
    rw [hduty]
    exact Inspection.heeds_gameServer.bind fun _ _ _ => trivial
  exact h.may hkeeps hpossible

/-- Whoever is under control updates an instance as it was shown, and leaves it drained if it was
drained then. -/
theorem Happened.updates (h : Happened deeds d)
    (hpossible : FairTo deeds (fun _ x => x.Possible) d.duty) (hforeign : ¬d.duty.IsForeign)
    {g : GameServer} (hupdate : d.exchange.request = .update .gameServer g) :
    ∃ old, d.before.Past .gameServer old ∧ Resource.key g = Resource.key old ∧
      Resource.version g = Resource.version old ∧ (old.isDrained = true → g.isDrained = true) := by
  by_cases hinspection : d.duty.IsInspection
  · have hmay := h.may_inspection hpossible hinspection
    rw [hupdate] at hmay
    obtain ⟨old, hshows, hmeta, hdrained⟩ := hmay
    exact ⟨old, Inspection.past_of_shows h.shown hshows, congrArg Meta.key hmeta,
      congrArg Meta.version hmeta, fun hold => hdrained.trans hold⟩
  by_cases hcollection : ∃ key, d.duty.IsPassOver key
  · obtain ⟨key, hpass⟩ := hcollection
    have hmay := h.may_course hpossible hpass
    rw [hupdate] at hmay
    obtain ⟨-, old, hserver, ⟨-, hdetach⟩ | ⟨-, hdetach⟩⟩ := hmay
    · obtain ⟨hkey, hversion, -⟩ := Pass.leaving_detach hdetach
      exact ⟨old, Course.past_of_server h.shown hserver, hkey, hversion,
        fun hold => (Pass.drained_detach hdetach).trans hold⟩
    · obtain ⟨hkey, hversion, -⟩ := Pass.leaving_detachMarked hdetach
      exact ⟨old, Course.past_of_server h.shown hserver, hkey, hversion,
        Pass.drained_detachMarked hdetach⟩
  · have habstains : d.exchange.request.Abstains :=
      h.may (Duty.keeps_abstaining hforeign hinspection fun key hpass => hcollection ⟨key, hpass⟩)
        fun _ _ _ => trivial
    rw [hupdate] at habstains
    exact habstains.elim

/-- The request was served, and has changed the instances so. -/
def Deed.Changes (d : Deed) (c : Change GameServer) : Prop :=
  d.after.logs .gameServer = d.before.logs .gameServer ++ [c]

/-- What a change of instances was asked for. -/
theorem Deed.Changes.cases {d : Deed} {change : Change GameServer} (h : d.Changes change)
    (hw : d.before.Recorded)
    (hserves : d.before.Serves d.exchange.request d.exchange.answer d.after) :
    (∃ g, d.exchange.request = .create .gameServer g) ∨
      (∃ g old, d.exchange.request = .update .gameServer g ∧
        (d.before.stores .gameServer).get? (Resource.key g) = some old ∧
        Resource.version g = Resource.version old ∧
        change = .updated old ((d.before.stores .gameServer).successor old g)) ∨
      ∃ k old, d.exchange.request = .delete .gameServer k ∧ change = .deleted old := by
  have hv := hserves.recorded hw
  have hlogs {c : Change GameServer} (hafter : d.after = d.before.changed .gameServer c) :
      change = c := by
    have hlog : d.after.logs .gameServer = d.before.logs .gameServer ++ [c] := by
      rw [hafter]
      exact Function.update_self Kind.gameServer _ d.before.logs
    simpa using h.symm.trans hlog
  rcases hserves.change_cases hw .gameServer with hsame | ⟨g, birth, hrequest, -⟩ |
    ⟨g, old, hrequest, hold, hversion, hafter, -⟩ | ⟨k, old, hrequest, -, hafter, -⟩
  · -- A store that has changed counts one write more.
    have hcount := congrArg Store.version hsame
    rw [← (hv .gameServer).past_eq, ← (hw .gameServer).past_eq, Store.version_past le_rfl,
      Store.version_past le_rfl, h, List.length_append, List.length_singleton] at hcount
    omega
  · exact .inl ⟨g, hrequest⟩
  · exact .inr (.inl ⟨g, old, hrequest, hold, hversion, hlogs hafter⟩)
  · exact .inr (.inr ⟨k, old, hrequest, hlogs hafter⟩)

variable {c : Chronicle} {key : Key}

/-- No pass and no cleanup rouses an instance that is stored. It is roused by who reports, by who
is not under control, or by who makes it anew. -/
theorem rousing_of_run {w : World} (hrecorded : w.Recorded)
    (hrun : Run .anything (opening w) c) :
    ∀ d ∈ c.deeds, ∀ change, d.Changes change → change.Rouses key →
      d.duty.IsForeign ∨ ∃ g, d.exchange.request = .create .gameServer g := by
  intro d hd change hchanges hrouses
  have hfaithful := faithful_of_run hrecorded hrun
  have hdeed := hfaithful.deeds d hd
  by_contra hnot
  rw [not_or] at hnot
  obtain ⟨hforeign, hcreate⟩ := hnot
  rcases hchanges.cases hdeed.recorded hdeed.serves with hcreated |
    ⟨g, old, hupdate, hold, hversion, rfl⟩ | ⟨k, old, -, rfl⟩
  · exact hcreate hcreated
  · obtain ⟨seen, hpast, hkey, hversion', hdrained⟩ :=
      hdeed.updates (hfaithful.possible _) hforeign hupdate
    obtain rfl : seen = old := World.eq_of_past hdeed.recorded hpast (hkey ▸ hold)
      (hversion'.symm.trans hversion)
    obtain ⟨b, hb, -, hawake, hbefore⟩ := hrouses
    obtain rfl := Option.some.inj hb
    have hstays : GameServer.isDrained ((d.before.stores .gameServer).successor seen g) = true :=
      hdrained (hbefore seen rfl)
    rw [hawake] at hstays
    cases hstays
  · obtain ⟨b, hb, -⟩ := hrouses
    cases hb

/-- The instance that a pass over an instance deletes is marked for deletion and has no players, in
every run : if no change has roused it since the copy was stored that the pass has seen. -/
theorem drained_of_run {w : World} (hrecorded : w.Recorded)
    (hrun : Run .anything (opening w) c) {d : Deed} (hd : d ∈ c.deeds) (hpass : d.duty.IsInspection)
    (hdelete : d.exchange = ⟨.delete .gameServer key, .ok ()⟩)
    (hrests : ∀ seen, (Inspection.of d.past).seen = some seen → d.before.Rests seen) :
    ∃ g, (d.before.stores .gameServer).get? key = some g ∧
      g.status.markedForDeletion = true ∧ g.status.activePlayers = 0 := by
  have hfaithful := faithful_of_run hrecorded hrun
  have hdeed := hfaithful.deeds d hd
  have hmay := hdeed.may_inspection (hfaithful.possible _) hpass
  have hserves := hdeed.serves
  rw [hdelete] at hmay hserves
  obtain ⟨seen, hseen, rfl, hdrained⟩ := hmay
  have hat := (hrests seen hseen).drained hdeed.recorded hdrained
  generalize d.after = v at hserves
  cases hserves with
  | harmless h => exact h.elim
  | delete hgone =>
    obtain ⟨g, hg, -, -⟩ := Store.delete_eq_ok (hdeed.recorded _).sound hgone
    exact ⟨g, hg, GameServer.isDrained_iff.1 (hat g hg)⟩

/-! ## A drained instance -/

/-- An instance that is marked for deletion and has no players. -/
def drained : GameServer :=
  let g := Sample.gameServer "south"
  Store.newborn .empty Sample.birth { g with status := { g.status with markedForDeletion := true } }

def drainedWorld : World := (World.blank (Sample.registry [])).changed .gameServer (.added drained)

theorem recorded_drainedWorld : drainedWorld.Recorded :=
  (World.recorded_blank _).changed (Store.admits_of_create (Store.create_eq rfl))

theorem drained_found (a : GameServer) (h : some drained = some a) :
    Resource.key a = Resource.key drained ∧ drainedWorld.Past .gameServer a := by
  cases h
  exact ⟨rfl, 1, by decide, rfl⟩

/-- The instance rests over an update that leaves it drained. -/
theorem rests_drained {w : World} {seen g : GameServer} (hseen : some drained = some seen)
    (hlogs : w.logs .gameServer = [.added drained, .updated drained g])
    (hg : g.isDrained = true) : w.Rests seen := by
  cases hseen
  refine ⟨1, by simp [hlogs], by rw [hlogs]; rfl, fun i change hi hchange hrouses => ?_⟩
  rw [hlogs] at hchange
  obtain rfl : i = 1 := by
    have hlt := (List.getElem?_eq_some_iff.1 hchange).1
    simp only [List.length_cons, List.length_nil] at hlt
    omega
  cases hchange
  obtain ⟨b, hb, -, hawake, -⟩ := hrouses
  cases hb
  rw [hg] at hawake
  cases hawake

/-- A pass sees a drained instance, then its game server reports that a match is over, and then
the pass deletes it. -/
theorem drained_south :
    ∃ c d, Run .anything (opening drainedWorld) c ∧ (d ∈ c.deeds ∧ d.duty.IsInspection ∧
      d.exchange = ⟨.delete .gameServer (Resource.key drained), .ok ()⟩ ∧
        ∀ seen, (Inspection.of d.past).seen = some seen → d.before.Rests seen) ∧
      (Inspection.of d.past).seen = some drained ∧
      ∃ g, (d.before.stores .gameServer).get? (Resource.key drained) = some g ∧
        g.status.state = .postMatch ∧ g.status.markedForDeletion = true ∧
        g.status.activePlayers = 0 := by
  have hstart : Run .anything (opening drainedWorld) (opening drainedWorld) := .refl
  have hseen := (hstart.tail
    (.begin _ (.pass default .gameServer (Resource.key drained)) trivial)).tail
    (.serve _ [] [] _ _ _ _ _ _ rfl (.cached drained_found) trivial)
  have hreported := (((hseen.tail
    (.begin _ (.report default (Resource.key drained) fun s => { s with state := .postMatch })
      trivial)).tail
    (.serve _ [_] [] _ _ _ _ _ _ rfl .get trivial)).tail
    (.serve _ [_] [] _ _ _ _ _ _ rfl (.update rfl) trivial)).tail
    (.leave _ [_] [] _ rfl (.inl rfl))
  have hdone := hreported.tail (.serve _ [] [] _ _ _ _ _ _ rfl (.delete rfl) trivial)
  obtain ⟨g, hg, hmarked, hplayers⟩ := drained_of_run recorded_drainedWorld hdone
    (List.mem_append_right _ List.mem_cons_self) ⟨_, _, rfl⟩ rfl fun _ h => rests_drained h rfl rfl
  refine ⟨_, _, hdone, ⟨List.mem_append_right _ List.mem_cons_self, ⟨_, _, rfl⟩, rfl,
    fun _ h => rests_drained h rfl rfl⟩, rfl, g, hg, ?_, hmarked, hplayers⟩
  cases hg
  rfl

/-- A player is reported before the pass looks the instance up, and the cache does not know yet :
the pass deletes the instance with the player. -/
theorem roused_deleted :
    ∃ c d, Run .anything (opening drainedWorld) c ∧ d ∈ c.deeds ∧ d.duty.IsInspection ∧
      d.exchange = ⟨.delete .gameServer (Resource.key drained), .ok ()⟩ ∧
      ∃ g, (d.before.stores .gameServer).get? (Resource.key drained) = some g ∧
        g.status.activePlayers = 1 := by
  have hstart : Run .anything (opening drainedWorld) (opening drainedWorld) := .refl
  have hjoined := (((hstart.tail
    (.begin _ (.report default (Resource.key drained) fun s => { s with activePlayers := 1 })
      trivial)).tail
    (.serve _ [] [] _ _ _ _ _ _ rfl .get trivial)).tail
    (.serve _ [] [] _ _ _ _ _ _ rfl (.update rfl) trivial)).tail
    (.leave _ [] [] _ rfl (.inl rfl))
  have hdone := ((hjoined.tail
    (.begin _ (.pass default .gameServer (Resource.key drained)) trivial)).tail
    (.serve _ [] [] _ _ _ _ _ _ rfl
      (.cached fun a ha => ⟨(drained_found a ha).1, 1, by decide, ?_⟩) trivial)).tail
    (.serve _ [] [] _ _ _ _ _ _ rfl (.delete rfl) trivial)
  · exact ⟨_, _, hdone, List.mem_append_right _ List.mem_cons_self, ⟨_, _, rfl⟩, rfl, _, rfl, rfl⟩
  · cases ha
    rfl

end Chronicle

end GameFleet
