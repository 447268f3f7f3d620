import GameFleet.Pass.Reconciler
import GameFleet.Proofs.Port.Tenancy

/-!
# Passes keep to their tenancy

Every program of the control plane keeps to the `tenancy`. A pass of a reconciler begins and
ends with empty hands, whether it fails or not (`Reconciler.calm_pass`). The host ports that
it is given in between go to an instance or back (`Pass.handles_allocate_bind`). The cleanup
after an instance begins with the claims of the instance (`Cleanup.handles_gameServer`).
-/

namespace GameFleet

open Program

variable {α β : Type} {gs : List GameServer} {held : Multiset (Key × Port)}

namespace Pass

theorem handles_ask {request : Request} {left : request.Answer → Multiset (Key × Port)}
    (h : (Program.ask request).Handles gs held left) :
    (Pass.ask request).run.Handles gs held (orNothing left) := by
  have hrun : (Pass.ask request).run = Program.ask request >>= fun answer => pure (.ok answer) :=
    rfl
  rw [hrun]
  exact h.bind fun answer t ht => ht

/-! ## Calm passes -/

/-- The pass begins and ends with empty hands. -/
def Calm (gs : List GameServer) (p : Pass α) : Prop := p.run.Handles gs 0 (orNothing fun _ => 0)

theorem calm_pure (a : α) : (pure a : Pass α).Calm gs := fun _ ht => ht

theorem calm_throw (e : PassError) : (throw e : Pass α).Calm gs := handles_throw e

theorem Calm.bind {p : Pass α} {f : α → Pass β} (h : p.Calm gs) (hf : ∀ a, (f a).Calm gs) :
    (p >>= f).Calm gs :=
  Handles.bindExcept h hf

theorem calm_ask (request : Request) (h : request.Idle) : (ask request).Calm gs :=
  handles_ask (handles_idle request h)

theorem calm_record (type : EventType) (kind : Kind) (object : Key) (reason : Reason)
    (message : String) : (record type kind object reason message).Calm gs :=
  calm_ask _ trivial

/-- Some failures are none. -/
theorem calm_forgive (forgiven : Bool) (e : PassError) :
    (if forgiven then return () else throw e : Pass Unit).Calm gs := by
  split
  · exact calm_pure ()
  · exact calm_throw e

/-- An access that begins and ends with empty hands, as part of a pass. -/
theorem calm_access {p : Access α} (h : p.run.Handles gs 0 fun _ => 0) : (access p).Calm gs := by
  have hrun : (access p).run = p.run >>= fun r => pure (r.mapError PassError.store) := rfl
  unfold Calm
  rw [hrun]
  refine h.bind fun r => ?_
  cases r with
  | ok a => exact fun t ht => ht
  | error e => exact fun t ht => ht

theorem calm_cachedList (kind : Kind) (ns : String) (selector : Selector) :
    (cachedList kind ns selector).Calm gs :=
  calm_access (handles_idle (.cachedList kind ns selector) trivial)

theorem calm_cached (kind : Kind) (key : Key) : (cached kind key).Calm gs :=
  calm_access (handles_idle (.cached kind key) trivial)

/-- An instance that is looked up is known from then on. -/
theorem calm_cached_bind {key : Key} {f : Option GameServer → Pass β}
    (hf : ∀ found : Option GameServer, (f found).Calm (found.toList ++ gs)) :
    (cached .gameServer key >>= f).Calm gs := by
  intro t ht
  refine ⟨trivial, ?_⟩
  rintro answer u rfl
  cases answer with
  | ok found => exact (hf found _ (ht.after _ _)).mono fun r v hv => hv.forget
  | error e => exact (ht.after _ _).forget

/-- Changing something else than instances needs no ports. -/
theorem calm_modify {kind : Kind} (hkind : kind ≠ .gameServer) (retry : Retry) (key : Key)
    (change : kind.Obj → Option kind.Obj) :
    (access (.modify retry kind key change)).Calm gs := by
  refine calm_access (Access.handles_edit retry kind key _ fun a copy _ t _ => ?_)
  exact t.may_of_idle (Request.idle_update hkind copy)

/-- Neither does changing an instance that keeps its ports. -/
theorem calm_modifyGameServer (retry : Retry) (key : Key) {change : GameServer → Option GameServer}
    (h : ∀ g changed, change g = some changed → changed.Resembles g) :
    (access (.modify retry .gameServer key change)).Calm gs := by
  refine calm_access (Access.handles_editGameServer retry key _ fun g hedit => ?_)
  cases hchange : change g with
  | none => simp [hchange] at hedit
  | some changed => simpa [hchange] using h g changed hchange

/-! ## Ports on their way -/

theorem handles_release (owner : Key) (ports : List Port) :
    (release owner ports).run.Handles gs (claimsTo owner ports) (orNothing fun _ => 0) :=
  (handles_ask (Program.handles_release owner ports)).bindExcept fun _ => calm_pure ()

/-- Ports that are given back because something failed. -/
theorem handles_release_throw (owner : Key) (ports : List Port) (e : PassError)
    {left : α → Multiset (Key × Port)} :
    (release owner ports >>= fun _ => (throw e : Pass α)).run.Handles gs (claimsTo owner ports)
      (orNothing left) :=
  (handles_release owner ports).bindExcept fun _ => handles_throw e

/-- What comes after an allocation begins with all the ports that were asked for. An
allocation that fails leaves nothing. -/
theorem handles_allocate_bind (owner : Key) {left : β → Multiset (Key × Port)}
    {f : List Port → Pass β} (n : Nat) (taken : List Port)
    (hf : ∀ ports : List Port, ports.length = taken.length + n →
      (f ports).run.Handles gs (claimsTo owner ports) (orNothing left)) :
    (allocate owner n taken >>= f).run.Handles gs (claimsTo owner taken) (orNothing left) := by
  -- What was taken so far is held while the ports still to come are counted down.
  induction n generalizing taken with
  | zero =>
    rw [allocate, pure_bind]
    exact hf taken rfl
  | succ n ih =>
    rw [allocate, LawfulMonad.bind_assoc]
    refine (handles_ask (Program.handles_allocate owner)).bindExcept fun r => ?_
    cases r with
    | ok p =>
      have hrest := ih (taken ++ [p]) fun ports hports => hf ports (by
        rw [hports, List.length_append, List.length_singleton]
        omega)
      rwa [claimsTo_append_singleton] at hrest
    | error cause =>
      rw [LawfulMonad.bind_assoc]
      exact (handles_release owner taken).bindExcept fun _ t ht => ht

/-! ## Passes over instances -/

theorem calm_deleteDrained (key : Key) : (deleteDrained key).Calm gs := by
  refine (calm_ask (.delete .gameServer key) trivial).bind fun r => ?_
  cases r with
  | ok _ => exact calm_record _ _ _ _ _
  | error cause => exact calm_forgive cause.isNotFound _

/-- The host ports that an instance is given are written to it or given back. -/
theorem calm_assignHostPorts (g : GameServer) : (assignHostPorts g).Calm (g :: gs) := by
  refine handles_allocate_bind (Resource.key g) _ [] fun ports hports => ?_
  have hlen : ports.length = g.spec.template.ports.countP g.awaitsHostPort := by
    rw [hports, List.length_nil, Nat.zero_add]
  have hclaims : ((g.withFilled g.awaitsHostPort ports).claims : Multiset (Key × Port)) =
      g.claims + claimsTo (Resource.key g) ports := by
    rw [claimsTo, Multiset.coe_add, Multiset.coe_eq_coe]
    exact g.claims_filled_awaiting hlen
  refine (handles_ask (handles_update (g.withFilled g.awaitsHostPort ports) g rfl rfl
    hclaims)).bindExcept fun r => ?_
  cases r with
  | ok updated => exact calm_pure updated
  | error cause => exact handles_release_throw _ ports _

theorem calm_createPod (context : PassContext) (g : GameServer) :
    (createPod context g).Calm (g :: gs) := by
  unfold createPod
  -- The pod is made by the same program, whether there were host ports to assign or not.
  extract_lets rest
  have hrest (g' : GameServer) : (rest g').Calm (g :: gs) := by
    refine (calm_ask (.create .pod _) trivial).bind fun r => ?_
    cases r with
    | ok pod => exact calm_record _ _ _ _ _
    | error cause => exact calm_forgive cause.isAlreadyExists _
  split
  · exact (calm_assignHostPorts g).bind hrest
  · exact (calm_pure g).bind hrest

theorem calm_observationOf (pod : Pod) : (observationOf pod).Calm gs := by
  unfold observationOf
  split
  · exact calm_pure _
  · next node _ =>
    have haddress : (addressOf node).Calm gs := by
      refine (calm_cached _ _).bind fun found => ?_
      cases found with
      | none => exact calm_throw _
      | some found =>
        cases haddress : Node.reachableAddress? found with
        | none => simpa only [haddress] using calm_throw _
        | some address => simpa only [haddress] using calm_pure address
    exact haddress.bind fun _ => calm_pure _

theorem calm_observePod (context : PassContext) (g : GameServer) (pod : Pod) :
    (observePod context g pod).Calm gs := by
  refine (calm_observationOf pod).bind fun observation => ?_
  split
  · exact calm_pure ()
  · refine (calm_modifyGameServer _ _ fun g changed hchange => ?_).bind fun _ => calm_pure ()
    rw [Observation.eq_of_change hchange]
    exact ⟨rfl, rfl, List.Perm.refl _⟩

theorem calm_gameServer (context : PassContext) (key : Key) :
    (Pass.gameServer context key).Calm gs := by
  refine calm_cached_bind fun found => ?_
  cases found with
  | none => exact calm_pure ()
  | some g =>
    simp only
    split
    · exact calm_pure ()
    split
    · exact calm_deleteDrained key
    refine (calm_cachedList _ _ _).bind fun pods => ?_
    cases Pod.select? pods with
    | none => exact calm_createPod context g
    | some pod => exact calm_observePod context g pod

/-! ## Passes over collections -/

/-- The host ports that a member is given are on it when it is created, or given back. -/
theorem calm_createMember (c : Collection) : (createMember c).Calm gs := by
  refine (calm_ask (.suffix _) trivial).bind fun suffix => ?_
  set g := c.newMember (Naming.generated c.metadata.name suffix)
  refine handles_allocate_bind (Resource.key g) _ [] fun ports hports => ?_
  have hlen : ports.length = g.spec.template.ports.countP g.exposes := by
    rw [hports, List.length_nil, Nat.zero_add]
  have hclaims : ((g.withFilled g.exposes ports).claims : Multiset (Key × Port)) =
      claimsTo (Resource.key g) ports := by
    rw [claimsTo, Multiset.coe_eq_coe]
    exact g.claims_filled_exposed hlen
  refine (handles_ask (handles_create hclaims)).bindExcept fun r => ?_
  cases r with
  | ok _ => exact calm_pure ()
  | error cause => exact handles_release_throw _ ports _

theorem calm_createMembers (c : Collection) (n : Nat) : (createMembers c n).Calm gs := by
  induction n with
  | zero => exact calm_pure ()
  | succ n ih => exact (calm_createMember c).bind fun _ => ih

theorem resembles_detach {collection : String} {g changed : GameServer}
    (h : detach collection g = some changed) : changed.Resembles g := by
  unfold detach at h
  split at h
  · cases h
    exact ⟨rfl, rfl, List.Perm.refl _⟩
  · cases h

theorem resembles_detachMarked {collection : String} {g changed : GameServer}
    (h : detachMarked collection g = some changed) : changed.Resembles g := by
  obtain ⟨detached, hdetach, rfl⟩ := Option.map_eq_some_iff.1 h
  obtain ⟨hkey, hversion, hports⟩ := resembles_detach hdetach
  exact ⟨hkey, hversion, hports⟩

theorem calm_detachAll (context : PassContext) (collection : String) (keys : List Key) :
    (detachAll context collection keys).Calm gs := by
  induction keys with
  | nil => exact calm_pure ()
  | cons key rest ih =>
    exact (calm_modifyGameServer _ _ fun _ _ => resembles_detachMarked).bind fun _ => ih

theorem calm_scale (context : PassContext) (c : Collection) (members : List GameServer) :
    (scale context c members).Calm gs := by
  unfold scale
  extract_lets desired
  split
  · exact (calm_createMembers c _).bind fun _ => calm_record _ _ _ _ _
  · split
    · exact (calm_ask (.pick _ _) trivial).bind fun picked =>
        (calm_detachAll context _ _).bind fun _ => calm_record _ _ _ _ _
    · exact calm_record _ _ _ _ _

theorem calm_handleFailure (context : PassContext) (c : Collection) (failed : Key) :
    (handleFailure context c failed).Calm gs := by
  unfold handleFailure
  cases c.spec.failBehavior with
  | remove =>
    exact (calm_modifyGameServer _ _ fun _ _ => resembles_detach).bind fun _ => calm_pure _
  | delete =>
    refine (calm_ask (.delete .gameServer failed) trivial).bind fun r => ?_
    cases r with
    | ok _ => exact calm_pure true
    | error cause =>
      simp only
      split
      · exact calm_pure false
      · exact calm_throw _

theorem calm_handleAll (context : PassContext) (c : Collection) (keys : List Key)
    (handled : Nat) : (handleAll context c keys handled).Calm gs := by
  induction keys generalizing handled with
  | nil => exact calm_pure handled
  | cons failed rest ih => exact (calm_handleFailure context c failed).bind fun _ => ih _

theorem calm_handleFailures (context : PassContext) (c : Collection) (failed : List Key) :
    (handleFailures context c failed).Calm gs := by
  unfold handleFailures
  split
  · refine (calm_modify (fun h => by cases h) _ _ _).bind fun updated => ?_
    split
    · exact calm_record _ _ _ _ _
    · exact calm_pure ()
  · refine (calm_handleAll context c failed 0).bind fun handled => ?_
    split
    · exact calm_pure ()
    · exact (calm_modify (fun h => by cases h) _ _ _).bind fun _ => calm_record _ _ _ _ _

theorem calm_collection (context : PassContext) (key : Key) :
    (Pass.collection context key).Calm gs := by
  refine (calm_cached .collection key).bind fun found => ?_
  cases found with
  | none => exact calm_pure ()
  | some seen =>
    simp only
    split
    · exact calm_pure ()
    refine (calm_access (handles_idle (.list .gameServer _ _) trivial)).bind fun members => ?_
    refine (calm_modify (fun h => by cases h) _ _ _).bind fun updated => ?_
    cases updated with
    | none => exact calm_pure ()
    | some c =>
      simp only
      split
      · exact calm_handleFailures context c _
      split
      · exact calm_pure ()
      · exact calm_scale context c members

/-! ## Passes over autoscalers -/

theorem calm_takeStep (c : Collection) (key : Key) (step : ScaleStep) (now : Time.Instant) :
    (takeStep c key step now).Calm gs := by
  refine (calm_access (handles_idle (.update .collection _) trivial)).bind fun _ => ?_
  exact (calm_record _ _ _ _ _).bind fun _ => calm_pure step

theorem calm_autoscaler (key : Key) : (Pass.autoscaler key).Calm gs := by
  refine (calm_cached .collection key).bind fun found => ?_
  cases found with
  | none => exact calm_pure none
  | some c =>
    simp only
    split
    · exact calm_pure none
    cases c.activeAutoscaler? with
    | none => exact calm_pure none
    | some a =>
      simp only
      split
      · exact calm_pure none
      refine (calm_ask .now trivial).bind fun now => ?_
      split
      · exact calm_pure none
      refine (calm_cachedList _ _ _).bind fun members => ?_
      cases a.decide members with
      | none => exact calm_pure none
      | some step => exact (calm_takeStep c key step now).bind fun _ => calm_pure _

end Pass

/-- Every pass begins and ends with empty hands. -/
theorem Reconciler.calm_pass (context : PassContext) (r : Reconciler) (key : Key) :
    (r.pass context key).Calm gs := by
  cases r with
  | gameServer => exact Pass.calm_gameServer context key
  | collection => exact Pass.calm_collection context key
  | autoscaler => exact (Pass.calm_autoscaler key).bind fun _ => Pass.calm_pure ()

/-! ## Cleanups -/

namespace Cleanup

theorem handles_deleteAll (kind : Kind) (keys : List Key) :
    (deleteAll kind keys).Handles gs 0 fun _ => 0 := by
  induction keys with
  | nil => exact fun t ht => ht
  | cons key rest ih => exact (handles_idle (.delete kind key) trivial).bind fun _ => ih

theorem handles_deleteOwned (kind : Kind) (ns : String) (selector : Selector) (owner : Kind)
    (name : String) : (deleteOwned kind ns selector owner name).Handles gs 0 fun _ => 0 := by
  refine (handles_idle (.list kind ns selector) trivial).bind fun r => ?_
  cases r with
  | error _ => exact fun t ht => ht
  | ok found => exact handles_deleteAll kind _

/-- The cleanup after an instance gives back what the instance claimed. -/
theorem handles_gameServer (g : GameServer) :
    (Cleanup.gameServer g).Handles gs g.claims fun _ => 0 :=
  (Program.handles_release (Resource.key g) g.exposedHostPorts).bind fun _ =>
    handles_deleteOwned _ _ _ _ _

theorem handles_collection (c : Collection) :
    (Cleanup.collection c).Handles gs 0 fun _ => 0 :=
  handles_deleteOwned _ _ _ _ _

end Cleanup

end GameFleet
