import GameFleet.Proofs.Collection.Triggers
import GameFleet.Proofs.Pass.Duties

/-!
# What calls for a pass over an instance

A pass over an instance that ends well without a write has found nothing to do (`World.Idle`) : the
instance is not drained, and what is to be observed of its pod is on it, or it has no pod but a
pod of another has its name. So the pass reads the instance, the pods that are bound to it, and
whether its name is taken among the pods.

Most changes of these call for a pass. `World.Overlooks` has those that do not : a pod that is bound
to the instance loses the label, the pod that stood in the way goes, or an instance without a pod
is to have host ports now. `Reconciler.gameServer_triggered` says that there are no others, and
`World.missed_exposed` and `World.missed_unbound` are changes after which a pass has something to do
and is not called for.
-/

namespace GameFleet

open Pass Program

variable {owner key : Key} {w v : World} {g : GameServer}

/-! ## What a pass reads -/

/-- The pod is bound to the instance with this key. -/
def Pod.IsBound (key : Key) (p : Pod) : Prop :=
  p.metadata.ns = key.ns ∧ p.metadata.label? Labels.gameServerName = some key.name

instance (key : Key) : DecidablePred (Pod.IsBound key) := fun p =>
  inferInstanceAs (Decidable (p.metadata.ns = key.ns ∧ p.metadata.label? _ = some key.name))

namespace World

/-- The pods that are bound to an instance. -/
def boundPods (w : World) (key : Key) : List Pod :=
  (w.stores .pod).objects.list (some key.ns) (.ofLabel Labels.gameServerName key.name)

/-- What is to be observed of a pod, if its node has an address. -/
def observation? (w : World) (pod : Pod) : Option Observation :=
  match pod.spec.nodeName.filter (· ≠ "") with
  | none => some ⟨pod.status.phase, none, none⟩
  | some node => (((w.stores .node).get? ⟨"", node⟩).bind Node.reachableAddress?).map fun address =>
      ⟨pod.status.phase, some address, some node⟩

/-- The instance has no pod and can get none now, or it has observed its pod. -/
def housed (w : World) (key : Key) (g : GameServer) : Bool :=
  match Pod.select? (w.boundPods key) with
  | none => !g.needsHostPorts && ((w.stores .pod).get? key).isSome
  | some pod => (w.observation? pod).any fun o => (o.change g).isNone

theorem housed_iff : w.housed key g = true ↔
    (Pod.select? (w.boundPods key) = none ∧ g.needsHostPorts = false ∧
      ((w.stores .pod).get? key).isSome) ∨
    ∃ pod o, Pod.select? (w.boundPods key) = some pod ∧ w.observation? pod = some o ∧
      o.change g = none := by
  unfold housed
  cases Pod.select? (w.boundPods key) with
  | none => simp
  | some pod => simp [Option.any_eq_true]

/-- The instance can be given the host ports that it lacks, and its pod can be observed. -/
structure Provides (w : World) (key : Key) (g : GameServer) : Prop where
  serving : w.registry.Serving
  free : g.spec.template.ports.countP g.awaitsHostPort ≤ w.registry.pool.free.card
  observation : (Pod.select? (w.boundPods key)).all fun pod => (w.observation? pod).isSome

/-- The instance is stored and not about to go, and a pass over it finds nothing to do. -/
structure Idle (w : World) (key : Key) (g : GameServer) : Prop where
  stored : (w.stores .gameServer).get? key = some g
  key_eq : Resource.key g = key
  awake : Resource.isTerminating g = false
  undrained : g.isDrained = false
  housed : w.housed key g

end World

/-! ## A pass that finds nothing to do -/

namespace Pass

variable (context : PassContext)

theorem succeeds_observationOf {pod : Pod} {o : Observation} (h : w.observation? pod = some o) :
    Succeeds owner (observationOf pod) (fun o' v => o' = o ∧ v = w) w := by
  cases hnode : pod.spec.nodeName.filter (· ≠ "") with
  | none =>
    simp only [World.observation?, hnode] at h
    simp only [observationOf, hnode]
    exact succeeds_pure ⟨Option.some.inj h, rfl⟩
  | some node =>
    simp only [World.observation?, hnode] at h
    simp only [observationOf, hnode]
    obtain ⟨address, haddress, rfl⟩ := Option.map_eq_some_iff.1 h
    obtain ⟨found, hfound, hreachable⟩ := Option.bind_eq_some_iff.1 haddress
    have hasked : Succeeds owner (addressOf node) (fun a v => a = address ∧ v = w) w := by
      have hcached : Succeeds owner (cached .node ⟨"", node⟩)
          (fun n v => n = some found ∧ v = w) w := succeeds_cached ⟨hfound, rfl⟩
      refine hcached.bind ?_
      rintro n v ⟨rfl, rfl⟩
      simp only [hreachable]
      exact succeeds_pure ⟨rfl, rfl⟩
    refine hasked.bind ?_
    rintro a v ⟨rfl, rfl⟩
    exact succeeds_pure ⟨rfl, rfl⟩

/-- A pass over an instance that is stored and awake deletes it, makes it a pod, or observes its
pod. -/
theorem keeps_gameServer {ok : Unit → World → Prop} {error : PassError → World → Prop}
    (hstored : (w.stores .gameServer).get? key = some g) (hawake : Resource.isTerminating g = false)
    (hdrained : g.isDrained = true →
      (deleteDrained key).run.Keeps (World.alone key) (Ends ok error) w)
    (hcreate : g.isDrained = false → Pod.select? (w.boundPods key) = none →
      (createPod context g).run.Keeps (World.alone key) (Ends ok error) w)
    (hobserve : ∀ pod, g.isDrained = false → Pod.select? (w.boundPods key) = some pod →
      (observePod context g pod).run.Keeps (World.alone key) (Ends ok error) w) :
    (gameServer context key).run.Keeps (World.alone key) (Ends ok error) w := by
  have hcached : Succeeds key (cached .gameServer key) (fun found v => found = some g ∧ v = w) w :=
    succeeds_cached ⟨hstored, rfl⟩
  refine hcached.ends.bindExcept ?_
  rintro found v ⟨rfl, rfl⟩
  simp only [hawake, Bool.false_eq_true, if_false]
  split
  · next h => exact hdrained h
  · next h =>
    have hlist : Succeeds key (cachedList .pod key.ns (.ofLabel Labels.gameServerName key.name))
        (fun pods u => pods = v.boundPods key ∧ u = v) v := succeeds_cachedList ⟨rfl, rfl⟩
    refine hlist.ends.bindExcept ?_
    rintro pods u ⟨rfl, rfl⟩
    have hundrained := Bool.eq_false_of_not_eq_true h
    cases hselect : Pod.select? (u.boundPods key) with
    | none => exact hcreate hundrained hselect
    | some pod => exact hobserve pod hundrained hselect

theorem succeeds_gameServer {post : Unit → World → Prop}
    (hstored : (w.stores .gameServer).get? key = some g) (hawake : Resource.isTerminating g = false)
    (hdrained : g.isDrained = true → Succeeds key (deleteDrained key) post w)
    (hcreate : g.isDrained = false → Pod.select? (w.boundPods key) = none →
      Succeeds key (createPod context g) post w)
    (hobserve : ∀ pod, g.isDrained = false → Pod.select? (w.boundPods key) = some pod →
      Succeeds key (observePod context g pod) post w) :
    Succeeds key (gameServer context key) post w :=
  keeps_gameServer context hstored hawake hdrained hcreate hobserve

/-- No pod is made where one has the name. -/
theorem succeeds_createPod_of_taken (hports : g.needsHostPorts = false)
    (htaken : ((w.stores .pod).get? (Resource.key g)).isSome) :
    Succeeds owner (createPod context g) (fun _ v => v = w) w := by
  simp only [createPod, hports, Bool.false_eq_true, if_false, pure_bind]
  have hcontains : (w.stores .pod).objects.contains
      (Resource.key (Pod.ofGameServer g context.callbacks)) = true := htaken
  have hrefused : Succeeds owner (ask (.create .pod (.ofGameServer g context.callbacks)))
      (fun answer v => (∃ kind key, answer = Except.error (.alreadyExists kind key)) ∧ v = w)
      w := by
    refine succeeds_ask ⟨_, _, .create ⟨⟨0⟩, ⟨0, 0⟩⟩⟩ fun answer v hv => ?_
    cases hv with
    | create birth =>
      simp only [Store.create, hcontains, if_true]
      exact ⟨⟨_, _, rfl⟩, rfl⟩
  refine hrefused.bind ?_
  rintro answer v ⟨⟨kind, key, rfl⟩, rfl⟩
  exact succeeds_pure rfl

/-- What is on the instance already is not written. -/
theorem succeeds_observePod_of_current {pod : Pod} {o : Observation}
    (hobservation : w.observation? pod = some o) (hchange : o.change g = none) :
    Succeeds owner (observePod context g pod) (fun _ v => v = w) w := by
  refine (succeeds_observationOf hobservation).bind ?_
  rintro o v ⟨rfl, rfl⟩
  simp only [hchange, Option.isNone_none, if_true]
  exact succeeds_pure rfl

theorem succeeds_idle (h : w.Idle key g) :
    Succeeds key (gameServer context key) (fun _ v => v = w) w := by
  have hnot (hdrained : g.isDrained = true) : False := by
    rw [h.undrained] at hdrained
    cases hdrained
  rcases World.housed_iff.1 h.housed with ⟨hnone, hports, htaken⟩ | ⟨pod, o, hsome, hobserved⟩
  · refine succeeds_gameServer context h.stored h.awake (fun hdrained => (hnot hdrained).elim)
      (fun _ _ => succeeds_createPod_of_taken context hports (h.key_eq.symm ▸ htaken))
      fun pod _ hsome => ?_
    rw [hnone] at hsome
    cases hsome
  · refine succeeds_gameServer context h.stored h.awake (fun hdrained => (hnot hdrained).elim)
      (fun _ hnone => ?_) fun pod' _ hsome' => ?_
    · rw [hsome] at hnone
      cases hnone
    · rw [hsome] at hsome'
      cases hsome'
      exact succeeds_observePod_of_current context hobserved.1 hobserved.2

/-! ## What a pass that has something to do writes -/

theorem lone_observationOf {pod : Pod} {o : Observation}
    (h : Lone owner (observationOf pod).run w (.ok o) v) : w.observation? pod = some o ∧ v = w := by
  unfold observationOf at h
  unfold World.observation?
  cases hnode : pod.spec.nodeName.filter (· ≠ "") with
  | none =>
    simp only [hnode] at h
    cases h
    exact ⟨rfl, rfl⟩
  | some node =>
    simp only [hnode] at h
    obtain ⟨address, u, hasked, h⟩ := Lone.of_bind_ok h
    cases h
    obtain ⟨found, t, hcached, hreached⟩ := Lone.of_bind_ok hasked
    obtain ⟨hfound, rfl⟩ := lone_cached hcached
    cases hfound
    cases hfound : (t.stores .node).get? ⟨"", node⟩ with
    | none =>
      simp only [hfound] at hreached
      cases hreached
    | some n =>
      simp only [hfound] at hreached
      cases hreachable : n.reachableAddress? with
      | none =>
        simp only [hreachable] at hreached
        cases hreached
      | some a =>
        simp only [hreachable] at hreached
        cases hreached
        simp [hfound, hreachable]

/-- A pass that ends well has deleted the instance, or made it a pod, or observed its pod. -/
theorem lone_gameServer (hstored : (w.stores .gameServer).get? key = some g)
    (hawake : Resource.isTerminating g = false)
    (h : Lone key (gameServer context key).run w (.ok ()) v) :
    g.isDrained = true ∧ Lone key (deleteDrained key).run w (.ok ()) v ∨
      g.isDrained = false ∧ (Pod.select? (w.boundPods key) = none ∧
          Lone key (createPod context g).run w (.ok ()) v ∨
        ∃ pod, Pod.select? (w.boundPods key) = some pod ∧
          Lone key (observePod context g pod).run w (.ok ()) v) := by
  obtain ⟨found, u, hcached, h⟩ := Lone.of_bind_ok h
  obtain ⟨hfound, rfl⟩ := lone_cached hcached
  cases hfound
  simp only [hstored, hawake, Bool.false_eq_true, if_false] at h
  split at h
  · next hdrained => exact .inl ⟨hdrained, h⟩
  · next hundrained =>
    refine .inr ⟨Bool.eq_false_of_not_eq_true hundrained, ?_⟩
    obtain ⟨pods, t, hlist, h⟩ := Lone.of_bind_ok h
    obtain ⟨hpods, rfl⟩ := lone_cachedList hlist
    cases hpods
    change Lone key (match Pod.select? (t.boundPods key) with
      | none => createPod context g
      | some pod => observePod context g pod).run t (.ok ()) v at h
    cases hselect : Pod.select? (t.boundPods key) with
    | none =>
      rw [hselect] at h
      exact .inl ⟨rfl, h⟩
    | some pod =>
      rw [hselect] at h
      exact .inr ⟨pod, rfl, h⟩

theorem wrote_deleteDrained (hsound : (w.stores .gameServer).Sound)
    (hstored : (w.stores .gameServer).get? key = some g) {r : Except PassError Unit}
    (h : Lone owner (deleteDrained key).run w r v) : w.Wrote v := by
  refine Lone.wrote_of_first h fun r u hask => ?_
  obtain ⟨answer, rfl, hanswer⟩ := lone_ask hask
  exact hanswer.wrote_delete (hanswer.delete_eq hsound hstored).1

/-- Who has assigned host ports has stored them. -/
theorem wrote_assignHostPorts {g' : GameServer}
    (h : Lone owner (assignHostPorts g).run w (.ok g') v) : w.Wrote v := by
  obtain ⟨taken, t, htaken, h⟩ := Lone.of_bind_ok h
  obtain ⟨answer, u, hask, h⟩ := Lone.of_bind_ok h
  obtain ⟨answer', heq, hanswer⟩ := lone_ask hask
  cases heq
  cases answer with
  | error cause => exact (not_lone_throw h).elim
  | ok stored =>
    cases h
    have hwrote : t.Wrote v := hanswer.wrote_update rfl
    exact hwrote.imp fun kind hlt => (htaken.grows kind).trans_lt hlt

/-- To make a pod where none is bound is to write, unless the name is taken. -/
theorem housed_of_createPod (hkey : Resource.key g = key)
    (hnone : Pod.select? (w.boundPods key) = none)
    (h : Lone key (createPod context g).run w (.ok ()) v) (hsame : v.stores = w.stores) :
    w.housed key g := by
  cases hneeds : g.needsHostPorts with
  | true =>
    simp only [createPod, hneeds, if_true] at h
    obtain ⟨g', u, hassigned, h⟩ := Lone.of_bind_ok h
    exact absurd hsame (h.wrote (wrote_assignHostPorts hassigned)).ne
  | false =>
    simp only [createPod, hneeds, Bool.false_eq_true, if_false, pure_bind] at h
    obtain ⟨answer, u, hask, h⟩ := Lone.of_bind_ok h
    obtain ⟨answer', heq, hanswer⟩ := lone_ask hask
    cases heq
    refine World.housed_iff.2 (.inl ⟨hnone, hneeds, ?_⟩)
    by_contra hfree
    have hget : (w.stores .pod).get? (Resource.key (Pod.ofGameServer g context.callbacks)) = none :=
      (congrArg _ hkey).trans (by simpa using hfree)
    obtain ⟨birth, rfl, -⟩ := hanswer.create_eq hget
    exact (h.wrote (hanswer.wrote_create rfl)).ne hsame

/-- To observe a pod is to write, unless all that is to be observed is on the instance. -/
theorem housed_of_observePod (hstored : (w.stores .gameServer).get? key = some g)
    (hkey : Resource.key g = key) {pod : Pod} (hsome : Pod.select? (w.boundPods key) = some pod)
    (h : Lone key (observePod context g pod).run w (.ok ()) v) (hsame : v.stores = w.stores) :
    w.housed key g := by
  obtain ⟨o, u, hobserved, hwritten⟩ := Lone.of_bind_ok h
  obtain ⟨hobservation, rfl⟩ := lone_observationOf hobserved
  refine World.housed_iff.2 (.inr ⟨pod, o, hsome, hobservation, ?_⟩)
  by_contra hchange
  obtain ⟨b, hb⟩ := Option.ne_none_iff_exists'.1 hchange
  simp only [hb, Option.isNone_some, Bool.false_eq_true, if_false] at hwritten
  have hmeta := metadata_observation hb
  rw [hkey] at hwritten
  obtain ⟨found, t, hmodify, hrest⟩ := Lone.of_bind_ok hwritten
  exact (hrest.wrote (wrote_modify hstored hb ((congrArg Meta.key hmeta).trans hkey)
    (congrArg Meta.version hmeta) hmodify)).ne hsame

theorem idle_of_lone (hsound : (w.stores .gameServer).Sound)
    (hstored : (w.stores .gameServer).get? key = some g) (hawake : Resource.isTerminating g = false)
    (h : Lone key (gameServer context key).run w (.ok ()) v) (hsame : v.stores = w.stores) :
    w.Idle key g := by
  have hkey : Resource.key g = key := hsound.key_eq hstored
  rcases lone_gameServer context hstored hawake h with
    ⟨-, hdelete⟩ | ⟨hundrained, ⟨hnone, hcreate⟩ | ⟨pod, hsome, hobserve⟩⟩
  · exact absurd hsame (wrote_deleteDrained hsound hstored hdelete).ne
  · exact ⟨hstored, hkey, hawake, hundrained,
      housed_of_createPod context hkey hnone hcreate hsame⟩
  · exact ⟨hstored, hkey, hawake, hundrained,
      housed_of_observePod context hstored hkey hsome hobserve hsame⟩

/-! ## A pass succeeds -/

theorem succeeds_deleteDrained (hsound : (w.stores .gameServer).Sound)
    (hstored : (w.stores .gameServer).get? key = some g) :
    Succeeds owner (deleteDrained key) (fun _ _ => True) w := by
  have hdeleted : Succeeds owner (ask (.delete .gameServer key))
      (fun answer _ => answer = Except.ok ()) w :=
    succeeds_ask ⟨_, _, .delete⟩ fun answer v hv => (hv.delete_eq hsound hstored).1
  refine hdeleted.bind ?_
  rintro answer v rfl
  exact succeeds_record _ _ _ _ _ trivial

theorem succeeds_assignHostPorts (hstored : (w.stores .gameServer).get? (Resource.key g) = some g)
    (h : w.Provides key g) : Succeeds owner (assignHostPorts g) (fun _ _ => True) w := by
  have hallocated : Succeeds owner
      (allocate (Resource.key g) (g.spec.template.ports.countP g.awaitsHostPort) [])
      (fun _ v => v.stores = w.stores) w :=
    succeeds_allocate h.serving h.free fun _ _ _ _ _ => rfl
  refine hallocated.bind fun taken v hv => ?_
  rw [← hv] at hstored
  have hupdated : Succeeds owner (ask (.update .gameServer (g.withFilled g.awaitsHostPort taken)))
      (fun answer _ => ∃ a, answer = Except.ok a) v :=
    succeeds_ask ⟨_, _, .update⟩ fun answer u hu => ⟨_, (hu.update_eq hstored rfl).1⟩
  refine hupdated.bind ?_
  rintro answer u ⟨a, rfl⟩
  exact succeeds_pure trivial

/-- A pod that is there already will do. -/
theorem succeeds_createPod (hstored : (w.stores .gameServer).get? (Resource.key g) = some g)
    (h : w.Provides key g) : Succeeds owner (createPod context g) (fun _ _ => True) w := by
  unfold createPod
  extract_lets rest
  have hrest (g : GameServer) (v : World) : Succeeds owner (rest g) (fun _ _ => True) v := by
    have hcreated : Succeeds owner (ask (.create .pod (.ofGameServer g context.callbacks)))
        (fun answer _ => ∀ cause, answer = Except.error cause → cause.isAlreadyExists = true)
        v := by
      refine succeeds_ask ⟨_, _, .create ⟨⟨0⟩, ⟨0, 0⟩⟩⟩ fun answer u hu cause hcause => ?_
      cases hu with
      | create birth =>
        simp only [Store.create] at hcause
        split at hcause
        · cases hcause
          rfl
        · cases hcause
    refine hcreated.bind fun answer u hanswer => ?_
    cases answer with
    | ok pod => exact succeeds_record _ _ _ _ _ trivial
    | error cause =>
      simp only [hanswer cause rfl, if_true]
      exact succeeds_pure trivial
  split
  · exact (succeeds_assignHostPorts hstored h).bind fun g' v _ => hrest g' v
  · exact hrest g w

theorem succeeds_observePod (hstored : (w.stores .gameServer).get? (Resource.key g) = some g)
    {pod : Pod} (h : (w.observation? pod).isSome) :
    Succeeds owner (observePod context g pod) (fun _ _ => True) w := by
  obtain ⟨o, ho⟩ := Option.isSome_iff_exists.1 h
  refine (succeeds_observationOf ho).bind ?_
  rintro o v ⟨rfl, rfl⟩
  split
  · exact succeeds_pure trivial
  · have hmodified : Succeeds owner
        (access (.modify context.retry .gameServer (Resource.key g) o.change))
        (fun _ _ => True) v := by
      refine succeeds_modify hstored (fun _ => trivial) fun b hb => ?_
      have hmeta := metadata_observation hb
      exact ⟨congrArg Meta.key hmeta, congrArg Meta.version hmeta, trivial⟩
    exact hmodified.bind fun _ _ _ => succeeds_pure trivial

end Pass

/-! ## Rest -/

/-- A pass rests if and only if it finds nothing to do. -/
theorem Reconciler.rests_gameServer_iff {context : PassContext}
    (hsound : (w.stores .gameServer).Sound) (hstored : (w.stores .gameServer).get? key = some g)
    (hawake : Resource.isTerminating g = false) :
    Reconciler.gameServer.Rests context key w ↔ w.Idle key g := by
  constructor
  · rintro ⟨v, hrun, hsame⟩
    exact Pass.idle_of_lone context hsound hstored hawake hrun hsame
  · exact fun h => rests_of_succeeds (Pass.succeeds_idle context h)

/-- A pass succeeds if the instance has what it needs. -/
theorem Pass.succeeds_gameServer_of_provides (context : PassContext)
    (hsound : (w.stores .gameServer).Sound) (hstored : (w.stores .gameServer).get? key = some g)
    (hawake : Resource.isTerminating g = false) (hprovides : w.Provides key g) :
    Succeeds key (gameServer context key) (fun _ _ => True) w := by
  have hown : (w.stores .gameServer).get? (Resource.key g) = some g := by
    rw [hsound.key_eq hstored, hstored]
  refine succeeds_gameServer context hstored hawake
    (fun _ => succeeds_deleteDrained hsound hstored)
    (fun _ _ => succeeds_createPod context hown hprovides) fun pod _ hpod => ?_
  have hobservation := hprovides.observation
  rw [hpod] at hobservation
  exact succeeds_observePod context hown hobservation

/-- A pass that finds something to do writes, if the instance has what it needs. -/
theorem Reconciler.stirs_of_not_idle {context : PassContext}
    (hsound : (w.stores .gameServer).Sound) (hstored : (w.stores .gameServer).get? key = some g)
    (hawake : Resource.isTerminating g = false) (hprovides : w.Provides key g)
    (hnot : ¬w.Idle key g) : Reconciler.gameServer.Stirs context key w :=
  stirs_of_not_rests (Pass.succeeds_gameServer_of_provides _ hsound hstored hawake hprovides)
    fun hrests => hnot ((rests_gameServer_iff hsound hstored hawake).1 hrests)

/-! ## Changes that call for no pass -/

theorem World.boundPods_eq (w : World) (key : Key) :
    w.boundPods key = (w.stores .pod).objects.values.filterMap fun p =>
      if p.IsBound key then some p else none := by
  have hfilter : w.boundPods key =
      (w.stores .pod).objects.values.filter (Pod.IsBound key ·) := by
    refine List.filter_congr fun p _ => ?_
    rw [Selector.selects_ofLabel, Bool.eq_iff_iff, Bool.and_eq_true, beq_iff_eq, beq_iff_eq,
      decide_eq_true_iff]
    rfl
  rw [hfilter]
  induction (w.stores .pod).objects.values with
  | nil => rfl
  | cons p ps ih =>
    rw [List.filter_cons, List.filterMap_cons]
    by_cases hp : p.IsBound key <;> simp [hp, ih]

/-- A change after which a pass can find something to do, though it does not call for the pass. -/
inductive World.Overlooks (w : World) (key : Key) : (kind : Kind) → Change kind.Obj → Prop where
  /-- A pod loses the label that binds it to the instance. -/
  | unbound (old new : Pod) (hold : old.IsBound key) (hnew : ¬new.IsBound key) :
    Overlooks w key .pod (.updated old new)
  /-- No pod is bound to the instance, and the pod that has its name goes. -/
  | vacated (p : Pod) (hkey : Resource.key p = key) (hnone : w.boundPods key = []) :
    Overlooks w key .pod (.deleted p)
  /-- No pod is bound to the instance, and it is to have host ports, apart from which it is
  updated in nothing that the control plane acts on. -/
  | exposed (old new : GameServer) (hkey : Resource.key new = key) (hnone : w.boundPods key = [])
    (hports : old.needsHostPorts = false) (hneeds : new.needsHostPorts = true)
    (hquiet : old.changed new = false) : Overlooks w key .gameServer (.updated old new)

namespace Trigger

/-- A change of a pod calls for a pass over the instance that the pod is bound to now. -/
theorem mem_gameServerByPod_iff {change : Change Pod} :
    key ∈ gameServerByPod change ↔ change.object.IsBound key := by
  simp only [gameServerByPod, Option.mem_toList, Option.map_eq_some_iff, Pod.IsBound]
  constructor
  · rintro ⟨name, hname, rfl⟩
    exact ⟨rfl, hname⟩
  · rintro ⟨hns, hname⟩
    exact ⟨key.name, hname, by rw [hns]⟩

end Trigger

/-- What is overlooked calls for no pass indeed. -/
theorem World.Overlooks.not_triggered {kind : Kind} {change : Change kind.Obj}
    (hadmits : (w.stores kind).Admits change) (h : w.Overlooks key kind change) :
    key ∉ Reconciler.gameServer.triggered kind change := by
  cases h with
  | unbound old new hold hnew => exact fun hmem => hnew (Trigger.mem_gameServerByPod_iff.1 hmem)
  | vacated p hkey hnone =>
    intro hmem
    have hbound : p.IsBound key := Trigger.mem_gameServerByPod_iff.1 hmem
    have hp : p ∈ w.boundPods key := by
      rw [boundPods_eq]
      refine List.mem_filterMap.2 ⟨p, ?_, if_pos hbound⟩
      exact List.mem_map_of_mem (f := Prod.snd) (Table.find?_eq_some_iff.1 hadmits.before)
    rw [hnone] at hp
    exact List.not_mem_nil hp
  | exposed old new hkey hnone hports hneeds hquiet =>
    simp [Reconciler.triggered, Trigger.gameServerByGameServer, hquiet]

namespace GameServer

variable {old new : GameServer}

theorem isDrained_of_not_changed (h : old.changed new = false) : new.isDrained = old.isDrained := by
  simp only [changed, decide_eq_false_iff_not, not_or, not_not] at h
  obtain ⟨-, -, -, -, -, hplayers, hmarked, -⟩ := h
  rw [isDrained, isDrained, hplayers, hmarked]

theorem change_of_not_changed (h : old.changed new = false) {o : Observation}
    (hnone : o.change old = none) : o.change new = none := by
  simp only [changed, decide_eq_false_iff_not, not_or, not_not] at h
  obtain ⟨-, -, hphase, hip, hnode, -, -, -⟩ := h
  rw [Observation.change_eq_none_iff] at hnone ⊢
  rwa [← hphase, ← hip, ← hnode]

end GameServer

theorem Pod.select?_eq_none_iff {pods : List Pod} : Pod.select? pods = none ↔ pods = [] := by
  cases pods <;> simp [Pod.select?]

namespace World

theorem housed_of_same {g' : GameServer} (h : w.housed key g)
    (hpods : v.boundPods key = w.boundPods key) (hnodes : v.stores .node = w.stores .node)
    (hobserved : ∀ o : Observation, o.change g = none → o.change g' = none)
    (hvacant : w.boundPods key = [] → g.needsHostPorts = false →
      ((w.stores .pod).get? key).isSome →
        g'.needsHostPorts = false ∧ ((v.stores .pod).get? key).isSome) : v.housed key g' := by
  rw [housed_iff] at h ⊢
  rw [hpods]
  rcases h with ⟨hnone, hports, htaken⟩ | ⟨pod, o, hsome, hobservation, hchange⟩
  · exact .inl ⟨hnone, hvacant (Pod.select?_eq_none_iff.1 hnone) hports htaken⟩
  · refine .inr ⟨pod, o, hsome, ?_, hobserved o hchange⟩
    rw [← hobservation, observation?, observation?, hnodes]

/-- A change of a pod that calls for no pass leaves an instance idle. -/
theorem Idle.changed_pod (h : w.Idle key g) {change : Change Pod}
    (hadmits : (w.stores .pod).Admits change)
    (hnot : key ∉ Reconciler.gameServer.triggered .pod change)
    (hseen : ¬w.Overlooks key .pod change) : (w.changed .pod change).Idle key g := by
  have hnew : ¬change.object.IsBound key := fun hbound =>
    hnot (Trigger.mem_gameServerByPod_iff.2 hbound)
  have hservers : (w.changed .pod change).stores .gameServer = w.stores .gameServer :=
    w.stores_changed_of_ne (by decide) _
  have hpods : (w.changed .pod change).boundPods key = w.boundPods key := by
    rw [boundPods_eq, boundPods_eq, stores_changed]
    refine Store.filterMap_commit hadmits ?_
    cases change with
    | added p => exact (if_neg hnew).symm
    | deleted p => exact if_neg hnew
    | updated old new =>
      have hold : ¬old.IsBound key := fun hold => hseen (.unbound old new hold hnew)
      exact (if_neg hold).trans (if_neg hnew).symm
  refine ⟨by rw [hservers, h.stored], h.key_eq, h.awake, h.undrained,
    housed_of_same h.housed hpods (w.stores_changed_of_ne (by decide) _) (fun _ => id)
      fun hnone hports htaken => ⟨hports, ?_⟩⟩
  rw [stores_changed, Store.get?_commit]
  split
  · next hkey =>
    cases change with
    | added p => rfl
    | updated old new => rfl
    | deleted p => exact absurd (.vacated p hkey hnone) hseen
  · exact htaken

/-- An instance stays idle when it is stored as it was but for what the passes do not act on, if
it does not come to need host ports without a pod. -/
theorem Idle.of_quiet (h : w.Idle key g) {g' : GameServer}
    (hstored : (v.stores .gameServer).get? key = some g') (hkey : Resource.key g' = key)
    (hawake : Resource.isTerminating g' = false) (hquiet : g.changed g' = false)
    (hpods : v.stores .pod = w.stores .pod) (hnodes : v.stores .node = w.stores .node)
    (hports : w.boundPods key = [] → g.needsHostPorts = false → g'.needsHostPorts = false) :
    v.Idle key g' := by
  have hbound : v.boundPods key = w.boundPods key := by rw [boundPods, boundPods, hpods]
  have hhoused : v.housed key g' :=
    housed_of_same h.housed hbound hnodes (fun o => GameServer.change_of_not_changed hquiet)
      fun hnone hneeds htaken => ⟨hports hnone hneeds, by rwa [hpods]⟩
  exact ⟨hstored, hkey, hawake, (GameServer.isDrained_of_not_changed hquiet).trans h.undrained,
    hhoused⟩

/-- A change of an instance that calls for no pass leaves it idle too. -/
theorem Idle.changed_gameServer (h : w.Idle key g) {change : Change GameServer}
    (hadmits : (w.stores .gameServer).Admits change)
    (hnot : key ∉ Reconciler.gameServer.triggered .gameServer change)
    (hseen : ¬w.Overlooks key .gameServer change) {g' : GameServer}
    (hstored : ((w.changed .gameServer change).stores .gameServer).get? key = some g')
    (hawake : Resource.isTerminating g' = false) : (w.changed .gameServer change).Idle key g' := by
  have hpods : (w.changed .gameServer change).stores .pod = w.stores .pod :=
    w.stores_changed_of_ne (by decide) _
  have hnodes : (w.changed .gameServer change).stores .node = w.stores .node :=
    w.stores_changed_of_ne (by decide) _
  have hget := hstored
  rw [stores_changed, Store.get?_commit] at hget
  split at hget
  · next hkey =>
    have hbefore := hadmits.before
    rw [hkey, h.stored] at hbefore
    cases change with
    | added new => cases hbefore
    | deleted old => cases hget
    | updated old new =>
      cases hget
      cases hbefore
      have hkey' : Resource.key g' = key := hkey
      have hquiet : g.changed g' = false := Bool.eq_false_of_not_eq_true fun hchanged =>
        hnot (by simp [Reconciler.triggered, Trigger.gameServerByGameServer, hchanged, hkey'])
      refine h.of_quiet hstored hkey' hawake hquiet hpods hnodes fun hnone hports => ?_
      exact Bool.eq_false_of_not_eq_true fun hneeds =>
        hseen (.exposed g g' hkey' hnone hports hneeds hquiet)
  · rw [h.stored] at hget
    cases hget
    exact h.of_quiet hstored h.key_eq h.awake (by simp [GameServer.changed]) hpods hnodes
      fun _ => id

end World

/-- In every state of the stores in which a pass over an instance ends well without a write, and
after every change of an instance or a pod that leaves the instance stored and not about to go :
if a pass would write something now, the change has put the instance into the queue, unless it
is one that is overlooked. -/
theorem Reconciler.gameServer_triggered {context context' : PassContext} {g' : GameServer}
    (hsound : (w.stores .gameServer).Sound) (hstored : (w.stores .gameServer).get? key = some g)
    (hawake : Resource.isTerminating g = false)
    (hrests : Reconciler.gameServer.Rests context key w) {kind : Kind}
    (hkind : kind = .gameServer ∨ kind = .pod) {change : Change kind.Obj}
    (hadmits : (w.stores kind).Admits change)
    (hstored' : ((w.changed kind change).stores .gameServer).get? key = some g')
    (hawake' : Resource.isTerminating g' = false) (hseen : ¬w.Overlooks key kind change)
    (hstirs : Reconciler.gameServer.Stirs context' key (w.changed kind change)) :
    key ∈ Reconciler.gameServer.triggered kind change := by
  have hidle := (rests_gameServer_iff hsound hstored hawake).1 hrests
  by_contra hnot
  have hidle' : (w.changed kind change).Idle key g' := by
    rcases hkind with rfl | rfl
    · exact hidle.changed_gameServer hadmits hnot hseen hstored' hawake'
    · have h := hidle.changed_pod hadmits hnot hseen
      have hsame := h.stored
      rw [hstored'] at hsame
      cases hsame
      exact h
  exact not_stirs_of_succeeds (Pass.succeeds_idle context' hidle') hstirs

/-! ## Changes of one instance and its pods -/

namespace World

/-- The instance is stored and awake before the change and after it, as `g` and then as `g'`. Before
it a pass rests, after it a pass may write, and the change does not call for one. -/
structure Misses (w : World) (context : PassContext) (key : Key) (g g' : GameServer) (kind : Kind)
    (change : Change kind.Obj) : Prop where
  sound : (w.stores .gameServer).Sound
  stored : (w.stores .gameServer).get? key = some g
  awake : Resource.isTerminating g = false
  rests : Reconciler.gameServer.Rests context key w
  admits : (w.stores kind).Admits change
  stored_after : ((w.changed kind change).stores .gameServer).get? key = some g'
  awake_after : Resource.isTerminating g' = false
  stirs : Reconciler.gameServer.Stirs context key (w.changed kind change)
  silent : key ∉ Reconciler.gameServer.triggered kind change

theorem sound_changed {other kind : Kind} {change : Change kind.Obj}
    (hsound : (w.stores other).Sound) (hadmits : (w.stores kind).Admits change) :
    ((w.changed kind change).stores other).Sound := by
  by_cases hkind : other = kind
  · subst hkind
    rw [stores_changed]
    exact hsound.commit hadmits
  · rwa [stores_changed_of_ne w hkind]

/-- What calls for no pass is missed, if an idle instance is not housed any more. -/
theorem Idle.misses {context : PassContext} {g' : GameServer} {kind : Kind}
    {change : Change kind.Obj} (h : w.Idle key g) (hsound : (w.stores .gameServer).Sound)
    (hadmits : (w.stores kind).Admits change)
    (hstored : ((w.changed kind change).stores .gameServer).get? key = some g')
    (hawake : Resource.isTerminating g' = false) (hprovides : (w.changed kind change).Provides key g')
    (hhoused : (w.changed kind change).housed key g' = false)
    (hsilent : key ∉ Reconciler.gameServer.triggered kind change) :
    w.Misses context key g g' kind change := by
  refine ⟨hsound, h.stored, h.awake,
    (Reconciler.rests_gameServer_iff hsound h.stored h.awake).2 h, hadmits, hstored, hawake,
    Reconciler.stirs_of_not_idle (sound_changed hsound hadmits) hstored hawake hprovides
      fun hidle => ?_, hsilent⟩
  rw [hidle.housed] at hhoused
  cases hhoused

/-- A world in which one instance is stored, and these pods. -/
def hall (g : GameServer) (pods : Store Pod) : World where
  stores
    | .gameServer => Store.commit .empty (.added g)
    | .pod => pods
    | .collection => .empty
    | .node => .empty
  logs _ := []
  registry := Sample.registry []
  departed := []

theorem sound_hall (birth : Birth) (g : GameServer) (pods : Store Pod) :
    ((hall (Store.newborn .empty birth g) pods).stores .gameServer).Sound :=
  sound_added birth g

/-- An instance, as it is stored, with these ports to expose. -/
def hallServer (ports : List Port) (phase : Option PodPhase) : GameServer :=
  let g := Sample.gameServer "arena"
  Store.newborn .empty Sample.birth { g with
    spec := { g.spec with portsToExpose := ports }
    status := { g.status with podPhase := phase } }

/-- Its pod, as it is stored. -/
def hallPod : Pod := Store.newborn .empty Sample.birth (Sample.pod "arena")

/-- The pod begins to run. -/
def hallRun : Change Pod :=
  .updated hallPod (Store.successor ⟨.empty, 1⟩ hallPod { hallPod with status := ⟨.running⟩ })

/-- The pod of an instance begins to run, which calls for a pass that writes this to the
instance. -/
theorem gameServer_triggered_run :
    let w := hall (hallServer [] (some .pending)) (Store.commit .empty (.added hallPod))
    Reconciler.gameServer.Rests default Sample.arenaKey w ∧
      Reconciler.gameServer.Stirs default Sample.arenaKey (w.changed .pod hallRun) ∧
      Sample.arenaKey ∈ Reconciler.gameServer.triggered .pod hallRun := by
  intro w
  have hsound : (w.stores .gameServer).Sound := sound_hall _ _ _
  have hadmits : (w.stores .pod).Admits hallRun :=
    Store.admits_of_update (Store.update_eq (by decide +kernel) rfl)
  have hrests : Reconciler.gameServer.Rests default Sample.arenaKey w :=
    (Reconciler.rests_gameServer_iff hsound rfl rfl).2
      ⟨rfl, rfl, rfl, by decide +kernel, by decide +kernel⟩
  have hstored : ((w.changed .pod hallRun).stores .gameServer).get? Sample.arenaKey =
      some (hallServer [] (some .pending)) := by decide +kernel
  have hstirs : Reconciler.gameServer.Stirs default Sample.arenaKey (w.changed .pod hallRun) :=
    Reconciler.stirs_of_not_idle hsound hstored rfl
      ⟨Registry.serving_ofPool _, by decide +kernel, by decide +kernel⟩
      fun h => absurd h.housed (by decide +kernel)
  have hseen : ¬w.Overlooks Sample.arenaKey .pod hallRun := by
    intro h
    cases h with
    | unbound _ _ _ hnew => exact hnew (by decide +kernel)
  exact ⟨hrests, hstirs, Reconciler.gameServer_triggered hsound rfl rfl hrests (.inr rfl) hadmits
    hstored rfl hseen hstirs⟩

/-- A pod of the instance's name that is not bound to it, as it is stored. -/
def hallStray : Pod :=
  Store.newborn .empty Sample.birth { Sample.pod "arena" with metadata := .new Sample.ns "arena" }

/-- The instance is to have a host port. -/
def hallOpening : Change GameServer :=
  .updated (hallServer [] none)
    (Store.successor ⟨.empty, 1⟩ (hallServer [] none) (hallServer [Sample.gamePort] none))

/-- Another's pod has the name of an instance, so the instance has none, and a pass has nothing to
do. Then the instance is to have a host port, and a pass would allocate it. The update calls for
no pass, since it is in none of the fields that an update is judged by. -/
theorem missed_exposed :
    (hall (hallServer [] none) (Store.commit .empty (.added hallStray))).Misses default
      Sample.arenaKey (hallServer [] none) hallOpening.object .gameServer hallOpening :=
  Idle.misses ⟨rfl, rfl, rfl, by decide +kernel, by decide +kernel⟩ (sound_hall _ _ _)
    (Store.admits_of_update (Store.update_eq (by decide +kernel) rfl)) (by decide +kernel) rfl
    ⟨Registry.serving_ofPool _, by decide +kernel, by decide +kernel⟩ (by decide +kernel)
    (by decide +kernel)

/-- The other's pod goes, and a pass would make the instance one. The change calls for no pass,
since the pod has no label. -/
theorem missed_vacated :
    (hall (hallServer [] none) (Store.commit .empty (.added hallStray))).Misses default
      Sample.arenaKey (hallServer [] none) (hallServer [] none) .pod (.deleted hallStray) :=
  Idle.misses ⟨rfl, rfl, rfl, by decide +kernel, by decide +kernel⟩ (sound_hall _ _ _)
    (Store.admits_of_delete (sound_added _ _)
      (Store.delete_eq (k := Sample.arenaKey) (sound_added _ _) (by decide +kernel)))
    (by decide +kernel) rfl ⟨Registry.serving_ofPool _, by decide +kernel, by decide +kernel⟩
    (by decide +kernel) (by decide +kernel)

/-- A second pod of the instance, which runs, as it is stored. -/
def hallSecond : Pod :=
  let p := Sample.pod "arena"
  Store.newborn ⟨.empty, 1⟩ Sample.birth
    { p with metadata := { p.metadata with name := "arena-2" }, status := ⟨.running⟩ }

/-- The second pod loses its labels. -/
def hallParting : Change Pod :=
  .updated hallSecond (Store.successor ⟨.empty, 2⟩ hallSecond
    { hallSecond with metadata := { hallSecond.metadata with labels := .empty } })

/-- An instance has a pod that runs, and one that is pending. The one that runs is taken from it,
and a pass would write to the instance that its pod is pending. The change calls for no pass,
since the pod is judged by the labels that it has now. -/
theorem missed_unbound :
    (hall (hallServer [] (some .running))
        (Store.commit (Store.commit .empty (.added hallPod)) (.added hallSecond))).Misses default
      Sample.arenaKey (hallServer [] (some .running)) (hallServer [] (some .running)) .pod
      hallParting :=
  Idle.misses ⟨rfl, rfl, rfl, by decide +kernel, by decide +kernel⟩ (sound_hall _ _ _)
    (Store.admits_of_update (Store.update_eq (by decide +kernel) rfl)) (by decide +kernel) rfl
    ⟨Registry.serving_ofPool _, by decide +kernel, by decide +kernel⟩ (by decide +kernel)
    (by decide +kernel)

end World

end GameFleet
