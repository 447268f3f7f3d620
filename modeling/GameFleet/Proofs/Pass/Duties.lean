import GameFleet.Proofs.Pass.Custody

/-!
# Every task keeps to its duty

The programs of all duties keep to `Duty.custody` (`Duty.keeps`), whatever the settings that
they run with.
-/

namespace GameFleet

namespace Pass

variable {α : Type} {d : Duty} {s : Notes}

theorem minds_release (owner : Key) (ports : List Port) :
    Minds d s (release owner ports) fun _ => True :=
  (minds_ask_plain (.release owner ports) trivial).bind fun _ _ => minds_pure trivial

theorem minds_release_throw (owner : Key) (ports : List Port) (e : PassError) {post : α → Prop} :
    Minds d s (release owner ports >>= fun _ => (throw e : Pass α)) post :=
  (minds_release owner ports).bind fun _ _ => minds_throw e

theorem minds_forgive (forgiven : Bool) (e : PassError) :
    Minds d s (if forgiven then return () else throw e : Pass Unit) fun _ => True := by
  split
  · exact minds_pure trivial
  · exact minds_throw e

theorem minds_allocate (owner : Key) (n : Nat) (taken : List Port) :
    Minds d s (allocate owner n taken) fun _ => True := by
  induction n generalizing taken with
  | zero => exact minds_pure trivial
  | succ n ih =>
    refine (minds_ask_plain (.allocate owner) trivial).bind fun r _ => ?_
    cases r with
    | ok port => exact ih (taken ++ [port])
    | error cause => exact minds_release_throw owner taken _

/-! ## Passes over instances -/

/-- An instance that was shown may be written with what else it is, but not who. -/
theorem mayChange_of_metadata {key : Key} {change : GameServer → Option GameServer}
    (h : ∀ g g', change g = some g' → g'.metadata = g.metadata) :
    MayChange d .gameServer key change := by
  intro g g' hkey hchange
  have hmeta := h g g' hchange
  refine ⟨(congrArg Meta.key hmeta).trans hkey, fun t hg => Or.inl ⟨g, hg, ?_⟩⟩
  exact ⟨congrArg Meta.key hmeta, congrArg Meta.version hmeta, Or.inl hmeta⟩

theorem minds_deleteDrained (key : Key) : Minds d s (deleteDrained key) fun _ => True := by
  refine (minds_ask_plain (.delete .gameServer key) trivial).bind fun r _ => ?_
  cases r with
  | ok _ => exact minds_record _ _ _ _ _
  | error cause => exact minds_forgive cause.isNotFound _

theorem minds_assignHostPorts {g : GameServer} (hg : g ∈ s.servers) :
    Minds d s (assignHostPorts g) fun _ => True := by
  refine (minds_allocate _ _ _).bind fun taken _ => ?_
  refine (minds_ask (.update .gameServer _) fun t ht => ?_).bind fun r _ => ?_
  · exact Or.inl ⟨g, ht.servers hg, rfl, rfl, Or.inl rfl⟩
  cases r with
  | ok updated => exact minds_pure trivial
  | error cause => exact minds_release_throw _ _ _

theorem minds_createPod (context : PassContext) {g : GameServer} (hg : g ∈ s.servers) :
    Minds d s (createPod context g) fun _ => True := by
  unfold createPod
  extract_lets rest
  have hrest (g' : GameServer) : Minds d s (rest g') fun _ => True := by
    refine (minds_ask_plain (.create .pod _) trivial).bind fun r _ => ?_
    cases r with
    | ok pod => exact minds_record _ _ _ _ _
    | error cause => exact minds_forgive cause.isAlreadyExists _
  split
  · exact (minds_assignHostPorts hg).bind fun g' _ => hrest g'
  · have hpure : Minds d s (pure g : Pass GameServer) fun _ => True := minds_pure trivial
    exact hpure.bind fun g' _ => hrest g'

theorem minds_observationOf (pod : Pod) : Minds d s (observationOf pod) fun _ => True := by
  unfold observationOf
  split
  · exact minds_pure trivial
  · next node _ =>
    have haddress : Minds d s (addressOf node) fun _ => True := by
      refine minds_cached_bind fun found _ => ?_
      cases found with
      | none => exact minds_throw _
      | some found =>
        simp only
        split
        · exact minds_throw _
        · exact minds_pure trivial
    exact haddress.bind fun _ _ => minds_pure trivial

theorem metadata_observation {o : Observation} {g g' : GameServer} (h : o.change g = some g') :
    g'.metadata = g.metadata := by
  rw [Observation.eq_of_change h]

theorem minds_observePod (context : PassContext) (g : GameServer) (pod : Pod) :
    Minds d s (observePod context g pod) fun _ => True := by
  refine (minds_observationOf pod).bind fun observation _ => ?_
  split
  · exact minds_pure trivial
  · exact (minds_access (minds_modify (mayChange_of_metadata fun _ _ => metadata_observation))).bind
      fun _ _ => minds_pure trivial

theorem minds_gameServer (context : PassContext) (key : Key) :
    Minds d s (Pass.gameServer context key) fun _ => True := by
  refine minds_cached_bind fun found _ => ?_
  cases found with
  | none => exact minds_pure trivial
  | some g =>
    simp only
    split
    · exact minds_pure trivial
    split
    · exact minds_deleteDrained key
    refine (minds_cachedList _ _ _).bind fun pods _ => ?_
    split
    · exact minds_createPod context (List.mem_append_right _ List.mem_cons_self)
    · exact minds_observePod context g _

/-! ## Passes over collections -/

section

variable {context : PassContext} {key : Key}

/-- An instance that was shown may be written without the label of a collection. -/
theorem mayChange_of_leaving {failed : Key} {change : GameServer → Option GameServer}
    (h : ∀ g g', change g = some g' → Resource.key g' = Resource.key g ∧
      Resource.version g' = Resource.version g ∧ g'.collection? = none) :
    MayChange d .gameServer failed change := by
  intro g g' hkey hchange
  obtain ⟨hkey', hversion, hnone⟩ := h g g' hchange
  exact ⟨hkey'.trans hkey, fun t hg => Or.inl ⟨g, hg, hkey', hversion, Or.inr hnone⟩⟩

theorem leaving_detach {collection : String} {g g' : GameServer}
    (h : detach collection g = some g') : Resource.key g' = Resource.key g ∧
      Resource.version g' = Resource.version g ∧ g'.collection? = none := by
  unfold detach at h
  split at h
  · cases h
    exact ⟨rfl, rfl, g.collection?_detached _⟩
  · cases h

theorem leaving_detachMarked {collection : String} {g g' : GameServer}
    (h : detachMarked collection g = some g') : Resource.key g' = Resource.key g ∧
      Resource.version g' = Resource.version g ∧ g'.collection? = none := by
  obtain ⟨detached, hdetach, rfl⟩ := Option.map_eq_some_iff.1 h
  obtain ⟨hkey, hversion, hnone⟩ := leaving_detach hdetach
  exact ⟨hkey, hversion, hnone⟩

/-- A collection that was read may be written with another status. -/
theorem mayChange_collection {change : Collection → Option Collection}
    (h : ∀ c c', change c = some c' → c'.metadata = c.metadata ∧ c'.spec = c.spec) :
    MayChange (.pass context .collection key) .collection key change := by
  intro c c' hkey hchange
  obtain ⟨hmeta, hspec⟩ := h c c' hchange
  exact ⟨(congrArg Meta.key hmeta).trans hkey, fun t hc => ⟨c, hc, hkey, hmeta, hspec⟩⟩

/-- A member is made by a pass that has found the collection. -/
theorem minds_createMember {c : Collection} (hkey : Resource.key c = key) (hfound : s.Found key) :
    Minds (.pass context .collection key) s (createMember c) fun _ => True := by
  refine (minds_ask_plain (.suffix Naming.suffixLength) trivial).bind fun suffix _ => ?_
  refine (minds_allocate _ _ _).bind fun taken _ => ?_
  refine (minds_ask (.create .gameServer _) fun t ht => ?_).bind fun r _ => ?_
  · obtain ⟨seen, hseen, hseenKey⟩ := hfound
    exact ⟨⟨seen, ht.looked hseen, hseenKey⟩, Collection.isMember_newMember hkey _⟩
  · cases r with
    | ok _ => exact minds_pure trivial
    | error cause => exact minds_release_throw _ _ _

theorem minds_createMembers {c : Collection} (hkey : Resource.key c = key) (hfound : s.Found key)
    (n : Nat) : Minds (.pass context .collection key) s (createMembers c n) fun _ => True := by
  induction n with
  | zero => exact minds_pure trivial
  | succ n ih => exact (minds_createMember hkey hfound).bind fun _ _ => ih

theorem minds_detachAll (collection : String) (keys : List Key) :
    Minds d s (detachAll context collection keys) fun _ => True := by
  induction keys with
  | nil => exact minds_pure trivial
  | cons key rest ih =>
    exact (minds_access (minds_modify (mayChange_of_leaving fun _ _ => leaving_detachMarked))).bind
      fun _ _ => ih

theorem minds_scale {c : Collection} (hkey : Resource.key c = key) (hfound : s.Found key)
    (members : List GameServer) :
    Minds (.pass context .collection key) s (scale context c members) fun _ => True := by
  unfold scale
  extract_lets desired
  split
  · exact (minds_createMembers hkey hfound _).bind fun _ _ => minds_record _ _ _ _ _
  · split
    · refine (minds_ask_plain (.pick _ _) trivial).bind fun picked _ => ?_
      exact (minds_detachAll _ _).bind fun _ _ => minds_record _ _ _ _ _
    · exact minds_record _ _ _ _ _

theorem minds_handleFailure (c : Collection) (failed : Key) :
    Minds d s (handleFailure context c failed) fun _ => True := by
  unfold handleFailure
  cases c.spec.failBehavior with
  | remove =>
    exact (minds_access (minds_modify (mayChange_of_leaving fun _ _ => leaving_detach))).bind
      fun _ _ => minds_pure trivial
  | delete =>
    refine (minds_ask_plain (.delete .gameServer failed) trivial).bind fun r _ => ?_
    cases r with
    | ok _ => exact minds_pure trivial
    | error cause =>
      simp only
      split
      · exact minds_pure trivial
      · exact minds_throw _

theorem minds_handleAll (c : Collection) (keys : List Key) (handled : Nat) :
    Minds d s (handleAll context c keys handled) fun _ => True := by
  induction keys generalizing handled with
  | nil => exact minds_pure trivial
  | cons failed rest ih => exact (minds_handleFailure c failed).bind fun _ _ => ih _

theorem intervene_keeps {c c' : Collection} (h : intervene c = some c') :
    c'.metadata = c.metadata ∧ c'.spec = c.spec := by
  obtain ⟨-, rfl⟩ := eq_of_intervene h
  exact ⟨rfl, rfl⟩

theorem Summary.change_keeps {summary : Summary} {c c' : Collection}
    (h : summary.change c = some c') : c'.metadata = c.metadata ∧ c'.spec = c.spec := by
  rw [Summary.eq_of_change h]
  exact ⟨rfl, rfl⟩

theorem minds_handleFailures {c : Collection} (hkey : Resource.key c = key) (failed : List Key) :
    Minds (.pass context .collection key) s (handleFailures context c failed) fun _ => True := by
  subst hkey
  unfold handleFailures
  split
  · refine (minds_access (minds_modify (mayChange_collection fun _ _ => intervene_keeps))).bind
      fun updated _ => ?_
    split
    · exact minds_record _ _ _ _ _
    · exact minds_pure trivial
  · refine (minds_handleAll c failed 0).bind fun handled _ => ?_
    split
    · exact minds_pure trivial
    · refine (minds_access (minds_modify (mayChange_collection fun c c' hc => ?_))).bind
        fun _ _ => minds_record _ _ _ _ _
      cases hc
      exact ⟨rfl, rfl⟩

theorem minds_collection :
    Minds (.pass context .collection key) s (Pass.collection context key) fun _ => True := by
  refine minds_cached_bind fun found hseen => ?_
  cases found with
  | none => exact minds_pure trivial
  | some seen =>
    simp only
    split
    · exact minds_pure trivial
    refine (minds_list _ _ _).bind fun members _ => ?_
    refine minds_modifyCollection_bind (mayChange_collection fun _ _ => Summary.change_keeps)
      (minds_pure trivial) fun c old hkey => ?_
    simp only
    split
    · exact minds_handleFailures hkey _
    split
    · exact minds_pure trivial
    · refine minds_scale hkey ⟨seen, ?_, hseen seen rfl⟩ members
      exact List.mem_append_right _ List.mem_cons_self

end

/-! ## Passes over autoscalers -/

section

variable {context : PassContext} {key : Key}

/-- The step that is called for is made. -/
theorem keeps_takeStep {c : Collection} {a : Autoscaler} {step : ScaleStep} {t : Notes}
    (hc : c ∈ t.looked) (hkey : Resource.key c = key) (hsteady : isSteady c = true)
    (ha : c.activeAutoscaler? = some a) (hdecide : a.decide t.listed = some step)
    (now : Time.Instant) :
    (takeStep c key step now).run.Keeps (Duty.pass context .autoscaler key).custody
      (Program.Ends (fun _ u => t.Within u) fun _ _ => True) t := by
  have hmay : (Duty.pass context .autoscaler key).May t (.update .collection (c.scaled step now)) :=
    ⟨c, hc, a, step, now, hkey, hsteady, ha, hdecide, rfl⟩
  refine ⟨hmay, fun answer u hu => ?_⟩
  rw [hu.2]
  cases answer with
  | error e => trivial
  | ok updated => exact ⟨trivial, fun _ v hv => hv.2 ▸ Notes.Within.refl _⟩

/-- A pass over an autoscaler makes the step that the members which it has listed call for. -/
theorem minds_autoscaler :
    Minds (.pass context .autoscaler key) s (Pass.autoscaler key) fun _ => True := by
  refine minds_cached_bind fun found hkey => ?_
  cases found with
  | none => exact minds_pure trivial
  | some c =>
    simp only
    split
    · exact minds_pure trivial
    cases ha : c.activeAutoscaler? with
    | none => exact minds_pure trivial
    | some a =>
      simp only
      split
      · exact minds_pure trivial
      next hsteady =>
        refine minds_ask_bind (fun _ _ => trivial) fun now => ?_
        split
        · exact minds_pure trivial
        -- `Minds` forgets which members were listed last, so the rest goes without it.
        refine fun t ht => (keeps_cachedList _ _ _ t).bindExcept fun members u hu => ?_
        have hwithin : (s.after (.cached .collection key) (.ok (some c))).Within u :=
          hu ▸ Notes.Within.trans ht (t.within_after _ _)
        have hlisted : u.listed = members := by rw [hu]; rfl
        cases hdecide : a.decide members with
        | none => exact ⟨trivial, hwithin⟩
        | some step =>
          have hc : c ∈ u.looked := hwithin.looked (List.mem_append_right _ List.mem_cons_self)
          rw [← hlisted] at hdecide
          have hsteady' : isSteady c = true := by simpa using hsteady
          refine (keeps_takeStep hc (hkey c rfl) hsteady' ha hdecide now).bindExcept ?_
          exact fun _ v hv => ⟨trivial, hwithin.trans hv⟩

end

/-! ## Reports and cleanups -/

theorem minds_report (retry : Retry) (key : Key) (f : GameServerStatus → GameServerStatus) :
    Minds d s (Report.change retry key f) fun _ => True := by
  refine (minds_modify (mayChange_of_metadata fun g g' hg => ?_)).bind fun found _ => ?_
  · simp only at hg
    split at hg
    · cases hg
    · cases hg
      rfl
  · cases found with
    | none => exact minds_throw _
    | some g => exact minds_pure trivial

end Pass

/-! ## Duties -/

theorem Cleanup.keeps_deleteAll {kind : Kind} (h : kind ≠ .collection) (d : Duty) (keys : List Key)
    (t : Notes) : (deleteAll kind keys).Keeps d.custody (fun _ _ => True) t := by
  have hplain (key : Key) : (Request.delete kind key).Plain := by
    cases kind with
    | collection => exact absurd rfl h
    | _ => trivial
  induction keys generalizing t with
  | nil => trivial
  | cons key rest ih => exact ⟨d.may_of_plain (hplain key) t, fun _ u _ => ih u⟩

theorem Cleanup.keeps_deleteOwned {kind : Kind} (h : kind ≠ .collection) (d : Duty) (ns : String)
    (selector : Selector) (owner : Kind) (name : String) (t : Notes) :
    (deleteOwned kind ns selector owner name).Keeps d.custody (fun _ _ => True) t := by
  refine ⟨trivial, fun answer u _ => ?_⟩
  cases answer with
  | error e => trivial
  | ok found => exact keeps_deleteAll h d _ u

theorem Minds.program {α ε : Type} {d : Duty} {p : ExceptT ε Program α} {post : α → Prop}
    (h : Minds d .empty p post) :
    (do let _ ← p.run : Program Unit).Keeps d.custody (fun _ _ => True) .empty :=
  (h .empty (.refl _)).bind fun _ _ _ => trivial

theorem Duty.may_ask (request : Request) (s : Notes) : (Duty.ask request).May s request := by
  cases request with
  | create kind a => cases kind <;> first | rfl | trivial
  | update kind a => cases kind <;> first | rfl | exact Or.inr rfl | trivial
  | delete kind key => cases kind <;> first | rfl | trivial
  | _ => trivial

/-- The program of every duty keeps to the duty. -/
theorem Duty.keeps (d : Duty) : d.program.Keeps d.custody (fun _ _ => True) .empty := by
  cases d with
  | pass context r key =>
    cases r with
    | gameServer => exact (Pass.minds_gameServer context key).program
    | collection => exact Pass.minds_collection.program
    | autoscaler =>
      have hpass : Minds (.pass context .autoscaler key) .empty
          (Reconciler.pass context .autoscaler key) fun _ => True :=
        Pass.minds_autoscaler.bind fun _ _ => minds_pure trivial
      exact hpass.program
  | report retry key f => exact (Pass.minds_report retry key f).program
  | cleanUp g =>
    exact ⟨trivial, fun _ u _ => Cleanup.keeps_deleteOwned (by decide) _ _ _ _ _ u⟩
  | release c => exact Cleanup.keeps_deleteOwned (by decide) _ _ _ _ _ _
  | ask request => exact ⟨may_ask request _, fun _ _ _ => trivial⟩

end GameFleet
