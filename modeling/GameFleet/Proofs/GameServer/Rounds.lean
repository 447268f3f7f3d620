import GameFleet.Proofs.GameServer.Lodgers
import GameFleet.Proofs.Port.Refunds

/-!
# Passes over an instance come to rest

Whatever is stored at first, passes over an instance that run alone settle it : when two of them
have ended well, every further one leaves the world as it is (`World.Rounds.settled_of_two`).
Passes may fail in between, and leave what is stored when they do. All passes together make one
pod at most.

A pass that ends well settles the instance at once, unless it makes the pod. Then the pod is still
to be observed, and the next pass does so (`World.Stage`).
-/

namespace GameFleet

open Pass Program

variable {owner key : Key} {w v u : World} {g : GameServer} {p : Pod}

/-! ## Where passes lead -/

namespace World

/-- Passes over the instance find nothing to do, since it is gone, or about to go, or idle. -/
inductive Settled (w : World) (key : Key) : Prop where
  | absent (hnone : (w.stores .gameServer).get? key = none)
  | terminating {g : GameServer} (hstored : (w.stores .gameServer).get? key = some g)
    (hgoing : Resource.isTerminating g = true)
  | idle {g : GameServer} (h : w.Idle key g)

/-- The instance is stored, and is to go on. -/
structure Alive (w : World) (key : Key) (g : GameServer) : Prop where
  stored : (w.stores .gameServer).get? key = some g
  key_eq : Resource.key g = key
  awake : Resource.isTerminating g = false
  undrained : g.isDrained = false

/-- The instance has one pod, which is on no node yet and was not observed. -/
structure Unobserved (w : World) (key : Key) (g : GameServer) (p : Pod) : Prop
    extends w.Alive key g where
  pods : w.boundPods key = [p]
  unscheduled : p.spec.nodeName = none

/-- A pod was made for the instance since, and none was written besides. It has the ports of the
instance as it is stored, and every exposed one of them has a host port. -/
structure Gains (w : World) (key : Key) (p : Pod) (v : World) : Prop where
  vacant : (w.stores .pod).get? key = none
  pods : v.stores .pod = (w.stores .pod).commit (.added p)
  key_eq : Resource.key p = key
  bound : p.IsBound key
  ports : ∃ g, (v.stores .gameServer).get? key = some g ∧ g.needsHostPorts = false ∧
    p.spec.containers.map (·.ports) = g.spec.template.containers.map (·.ports)

/-- How a pass that runs alone ends well. -/
inductive Outcome (w : World) (key : Key) (v : World) : Prop where
  | settled (hpods : v.stores .pod = w.stores .pod) (h : v.Settled key)
  | lodged {g : GameServer} {p : Pod} (hgains : w.Gains key p v) (h : v.Unobserved key g p)

theorem Alive.idle (h : w.Alive key g) (hhoused : w.housed key g) : w.Idle key g :=
  ⟨h.stored, h.key_eq, h.awake, h.undrained, hhoused⟩

theorem Outcome.of_pods_eq (hpods : v.stores .pod = w.stores .pod) (h : v.Outcome key u) :
    w.Outcome key u := by
  cases h with
  | settled hsame h => exact .settled (hsame.trans hpods) h
  | lodged hgains h =>
    exact .lodged ⟨hpods ▸ hgains.vacant, hpods ▸ hgains.pods, hgains.key_eq, hgains.bound,
      hgains.ports⟩ h

theorem boundPods_of_stores_eq (h : v.stores .pod = w.stores .pod) :
    v.boundPods key = w.boundPods key := by
  rw [boundPods, boundPods, h]

theorem observation?_of_stores_eq (h : v.stores .node = w.stores .node) (pod : Pod) :
    v.observation? pod = w.observation? pod := by
  rw [observation?, observation?, h]

/-- A pod that is made for an instance without a pod is its only one. -/
theorem boundPods_added (hnone : w.boundPods key = []) (hbound : p.IsBound key)
    (hadmits : (w.stores .pod).Admits (.added p)) :
    (w.changed .pod (.added p)).boundPods key = [p] := by
  have hvalues : (((w.stores .pod).commit (.added p)).objects.values : Multiset Pod) =
      (w.stores .pod).objects.values + [p] := by
    have hcommit := Store.values_commit hadmits
    simpa [Change.before?, Change.after?] using hcommit
  have hone : [p].filterMap (fun p => if p.IsBound key then some p else none) = [p] :=
    List.filterMap_cons_some (if_pos hbound)
  have hpods : ((w.changed .pod (.added p)).boundPods key : Multiset Pod) =
      w.boundPods key + [p] := by
    rw [← hone, boundPods_eq, boundPods_eq, stores_changed, ← Multiset.filterMap_coe,
      ← Multiset.filterMap_coe, ← Multiset.filterMap_coe, hvalues, Multiset.filterMap_add]
  rw [hnone, Multiset.coe_nil, zero_add] at hpods
  exact Multiset.coe_eq_singleton.1 hpods

end World

/-! ## Observing -/

/-- What the instance does not have of an observation is on it when it is written. -/
theorem World.Alive.idle_observed {pod : Pod} {o : Observation} {g' : GameServer}
    (h : w.Alive key g) (hsome : Pod.select? (w.boundPods key) = some pod)
    (hobservation : w.observation? pod = some o) (hchange : o.change g = some g') :
    (w.changed .gameServer (.updated g ((w.stores .gameServer).successor g g'))).Idle key
      ((w.stores .gameServer).successor g g') := by
  obtain rfl := Observation.eq_of_change hchange
  refine ⟨?_, h.key_eq, h.awake, h.undrained, housed_iff.2 (.inr ⟨pod, o, ?_, ?_, ?_⟩)⟩
  · rw [w.stores_changed, Store.get?_commit, Change.object, Store.key_successor]
    exact if_pos h.key_eq
  · rwa [boundPods_of_stores_eq (w.stores_changed_of_ne (by decide) _)]
  · rwa [observation?_of_stores_eq (w.stores_changed_of_ne (by decide) _)]
  · exact Observation.change_eq_none_iff.2 ⟨rfl, rfl, rfl⟩

namespace Pass

variable (context : PassContext)

/-- A pod on a node without an address cannot be observed, and nothing happens. -/
theorem keeps_observationOf_of_none {pod : Pod} (h : w.observation? pod = none) :
    (observationOf pod).run.Keeps (World.alone owner)
      (Ends (fun _ _ => False) fun _ v => v = w) w := by
  unfold observationOf
  unfold World.observation? at h
  cases hnode : pod.spec.nodeName.filter (· ≠ "") with
  | none =>
    simp only [hnode] at h
    cases h
  | some node =>
    simp only [hnode, Option.map_eq_none_iff] at h ⊢
    have hcached : Succeeds owner (cached .node ⟨"", node⟩)
        (fun n v => n = (w.stores .node).get? ⟨"", node⟩ ∧ v = w) w := succeeds_cached ⟨rfl, rfl⟩
    have hasked : (addressOf node).run.Keeps (World.alone owner)
        (Ends (fun _ _ => False) fun _ v => v = w) w := by
      refine hcached.ends.bindExcept ?_
      rintro n v ⟨rfl, rfl⟩
      cases hfound : (v.stores .node).get? ⟨"", node⟩ with
      | none => exact rfl
      | some n =>
        rw [hfound, Option.bind_some] at h
        simp only [h]
        exact rfl
    exact hasked.bindExcept fun _ _ hfalse => hfalse.elim

/-- What is observed of the pod is on the instance in the end. -/
theorem succeeds_observed {pod : Pod} {o : Observation} (h : w.Alive key g)
    (hsome : Pod.select? (w.boundPods key) = some pod)
    (hobservation : w.observation? pod = some o) :
    Succeeds key (observePod context g pod) (fun _ v => ∃ g', v.Idle key g' ∧ g'.spec = g.spec ∧
      v.stores .pod = w.stores .pod) w := by
  refine (succeeds_observationOf hobservation).bind ?_
  rintro o v ⟨rfl, rfl⟩
  cases hchange : o.change g with
  | none =>
    have hhoused := World.housed_iff.2 (.inr ⟨pod, o, hsome, hobservation, hchange⟩)
    exact succeeds_pure ⟨g, h.idle hhoused, rfl, rfl⟩
  | some b =>
    simp only [Option.isNone_some, Bool.false_eq_true, if_false, h.key_eq]
    have hmodified : Succeeds key (access (.modify context.retry .gameServer key o.change))
        (fun _ u => ∃ g', u.Idle key g' ∧ g'.spec = g.spec ∧ u.stores .pod = v.stores .pod) v := by
      refine succeeds_modify h.stored (fun hnone => ?_) fun b hb => ?_
      · rw [hchange] at hnone
        cases hnone
      · have hmeta := metadata_observation hb
        have hspec : b.spec = g.spec := by rw [Observation.eq_of_change hb]
        exact ⟨(congrArg Meta.key hmeta).trans h.key_eq, congrArg Meta.version hmeta, _,
          h.idle_observed hsome hobservation hb, hspec, v.stores_changed_of_ne (by decide) _⟩
    exact hmodified.bind fun _ _ hu => hu

theorem keeps_observePod {pod : Pod} (h : w.Alive key g)
    (hsome : Pod.select? (w.boundPods key) = some pod) :
    (observePod context g pod).run.Keeps (World.alone key)
      (Ends (fun _ v => w.Outcome key v) fun _ v => v.stores = w.stores) w := by
  cases hobservation : w.observation? pod with
  | some o =>
    refine (succeeds_observed context h hsome hobservation).ends.endsMono ?_
    rintro _ v ⟨g', hidle, -, hpods⟩
    exact .settled hpods (.idle hidle)
  | none =>
    have hfailed : (observationOf pod).run.Keeps (World.alone key)
        (Ends (fun _ _ => False) fun _ v => v.stores = w.stores) w := by
      refine (keeps_observationOf_of_none hobservation).mono fun r v hr => ?_
      cases r with
      | ok o => exact hr
      | error e => exact congrArg World.stores hr
    exact hfailed.bindExcept fun _ _ hfalse => hfalse.elim

/-! ## Making the pod -/

end Pass

/-- The ports that wanted a host port and have got one want none any more. -/
theorem Template.Fits.any_eq_false {wants : ContainerPort → Bool} {hs : List Port}
    {ps ps' : List ContainerPort} (h : Fits wants hs ps ps')
    (hfilled : ∀ (p : ContainerPort) (h : Port), wants { p with hostPort := some h } = false) :
    ps'.any wants = false := by
  induction h with
  | nil => rfl
  | filled h hwants _ ih => rw [List.any_cons, hfilled, ih, Bool.or_self]
  | left hwants _ ih => rw [List.any_cons, hwants, ih, Bool.or_self]

/-- An instance whose ports are filled where they had no host port needs none. -/
theorem GameServer.needsHostPorts_withFilled (g : GameServer) {hs : List Port}
    (hlength : hs.length = g.spec.template.ports.countP g.awaitsHostPort) :
    (g.withFilled g.awaitsHostPort hs).needsHostPorts = false := by
  have hfits := Template.fits_fillPorts g.spec.template.ports hlength
  have hports : (g.withFilled g.awaitsHostPort hs).spec.template.ports =
      (Template.fillPorts g.awaitsHostPort g.spec.template.ports hs).1 :=
    Template.ports_filled _ _ _
  unfold needsHostPorts
  rw [hports]
  exact hfits.any_eq_false fun p h => Bool.and_false _

theorem Pod.ports_ofGameServer (g : GameServer) (callbacks : Callbacks) :
    (ofGameServer g callbacks).spec.containers.map (·.ports) =
      g.spec.template.containers.map (·.ports) :=
  List.map_map

/-- The instance has no pod, and needs no host ports for one. -/
structure World.Ready (w : World) (key : Key) (g : GameServer) : Prop extends w.Alive key g where
  ports : g.needsHostPorts = false
  vacant : w.boundPods key = []

namespace Pass

variable (context : PassContext)

theorem keeps_release_alone {holder : Key} {ports : List Port} (h : v.stores = w.stores) :
    (release holder ports).run.Keeps (World.alone owner)
      (Ends (fun _ u => u.stores = w.stores) fun _ u => u.stores = w.stores) v := by
  refine ⟨⟨_, _, .release⟩, fun answer u hu => ?_⟩
  cases hu
  exact h

/-- Host ports are assigned, or what is stored stays. -/
theorem keeps_assignHostPorts_alone (h : w.Alive key g) (hvacant : w.boundPods key = []) :
    (assignHostPorts g).run.Keeps (World.alone key)
      (Ends (fun g' v => v.Ready key g' ∧ v.stores .pod = w.stores .pod)
        fun _ v => v.stores = w.stores) w := by
  have hallocated : (allocate (Resource.key g) (g.spec.template.ports.countP g.awaitsHostPort)
      []).run.Keeps (World.alone key) (Ends (fun taken v =>
        taken.length = g.spec.template.ports.countP g.awaitsHostPort ∧ v.stores = w.stores)
        fun _ v => v.stores = w.stores) w := by
    refine keeps_allocate_held (C := World.alone key) (fun _ => ⟨_, _, .allocate⟩) ?_ ?_
      (Nat.zero_add _) rfl
    · rintro ports v p t - hv ht
      rw [ht.allocate_eq.2, hv]
    · rintro ports v cause t - hv ht
      exact keeps_release_alone (by rw [ht.allocate_eq.2, hv])
  refine hallocated.bindExcept ?_
  rintro taken v ⟨hlength, hstores⟩
  set filled := g.withFilled g.awaitsHostPort taken with hfilled
  have hold : (v.stores .gameServer).get? (Resource.key filled) = some g := by
    rw [hstores, ← h.stored, ← h.key_eq]
    rfl
  have hupdated : Succeeds key (ask (.update .gameServer filled))
      (fun answer u => ∃ g', answer = Except.ok g' ∧ u.Ready key g' ∧
        u.stores .pod = w.stores .pod) v := by
    refine succeeds_ask ⟨_, _, .update⟩ fun answer u hu => ?_
    obtain ⟨hanswer, rfl⟩ := hu.update_eq hold rfl
    have hpods : (v.changed .gameServer (.updated g
        ((v.stores .gameServer).successor g filled))).stores .pod = w.stores .pod := by
      rw [v.stores_changed_of_ne (by decide), hstores]
    refine ⟨_, hanswer, ⟨⟨?_, h.key_eq, h.awake, h.undrained⟩,
      g.needsHostPorts_withFilled hlength, ?_⟩, hpods⟩
    · rw [v.stores_changed, Store.get?_commit, Change.object, Store.key_successor]
      exact if_pos h.key_eq
    · rw [World.boundPods_of_stores_eq hpods, hvacant]
  refine hupdated.ends.bindExcept ?_
  rintro answer u ⟨g', rfl, hready, hpods⟩
  exact ⟨hready, hpods⟩

/-- The pod is made, unless one is in the way. -/
theorem succeeds_createPod_of_ready (h : w.Ready key g) :
    Succeeds key (createPod context g) (fun _ v => w.Outcome key v) w := by
  set pod := Pod.ofGameServer g context.callbacks with hpod
  have hkey : Resource.key pod = key := h.key_eq
  cases hget : (w.stores .pod).get? key with
  | some other =>
    have htaken : ((w.stores .pod).get? key).isSome := by rw [hget]; rfl
    have hnone : Pod.select? (w.boundPods key) = none := by rw [h.vacant]; rfl
    refine (succeeds_createPod_of_taken context h.ports (h.key_eq.symm ▸ htaken)).mono ?_
    rintro _ v rfl
    exact .settled rfl (.idle (h.idle (World.housed_iff.2 (.inl ⟨hnone, h.ports, htaken⟩))))
  | none =>
    simp only [createPod, h.ports, Bool.false_eq_true, if_false, pure_bind]
    have hcreated : Succeeds key (ask (.create .pod pod))
        (fun answer v => ∃ p, answer = Except.ok p ∧ w.Outcome key v) w := by
      refine succeeds_ask ⟨_, _, .create ⟨⟨0⟩, ⟨0, 0⟩⟩⟩ fun answer v hv => ?_
      have hfree : (w.stores .pod).get? (Resource.key pod) = none := by rw [hkey, hget]
      obtain ⟨birth, hanswer, rfl⟩ := hv.create_eq hfree
      have hbound : ((w.stores .pod).newborn birth pod).IsBound key :=
        h.key_eq ▸ (Pod.belongs_ofGameServer g context.callbacks).1
      have hservers : (w.changed .pod
          (.added ((w.stores .pod).newborn birth pod))).stores .gameServer = w.stores .gameServer :=
        w.stores_changed_of_ne (by decide) _
      have hstored := h.stored
      rw [← hservers] at hstored
      have hpods := World.boundPods_added h.vacant hbound
        (Store.admits_of_create (Store.create_eq hfree))
      exact ⟨_, hanswer, .lodged
        ⟨hget, w.stores_changed .pod _, (Store.key_newborn _ _ _).trans hkey, hbound,
          g, hstored, h.ports, Pod.ports_ofGameServer g context.callbacks⟩
        ⟨⟨hstored, h.key_eq, h.awake, h.undrained⟩, hpods, rfl⟩⟩
    refine hcreated.bind ?_
    rintro answer v ⟨p, rfl, houtcome⟩
    exact succeeds_record _ _ _ _ _ houtcome

theorem keeps_createPod (h : w.Alive key g) (hvacant : w.boundPods key = []) :
    (createPod context g).run.Keeps (World.alone key)
      (Ends (fun _ v => w.Outcome key v) fun _ v => v.stores = w.stores) w := by
  cases hneeds : g.needsHostPorts with
  | false => exact (succeeds_createPod_of_ready context ⟨h, hneeds, hvacant⟩).ends
  | true =>
    simp only [createPod, hneeds, if_true]
    refine (keeps_assignHostPorts_alone h hvacant).bindExcept ?_
    rintro g' v ⟨hready, hpods⟩
    have hmade := (succeeds_createPod_of_ready context hready).mono
      fun _ u hu => World.Outcome.of_pods_eq hpods hu
    simp only [createPod, hready.ports, Bool.false_eq_true, if_false, pure_bind] at hmade
    exact hmade.ends

/-! ## One pass -/

theorem succeeds_deleteDrained_settled (hsound : (w.stores .gameServer).Sound)
    (hstored : (w.stores .gameServer).get? key = some g) :
    Succeeds key (deleteDrained key) (fun _ v => w.Outcome key v) w := by
  have hdeleted : Succeeds key (ask (.delete .gameServer key))
      (fun answer v => answer = Except.ok () ∧ w.Outcome key v) w := by
    refine succeeds_ask ⟨_, _, .delete⟩ fun answer v hv => ?_
    obtain ⟨hanswer, rfl⟩ := hv.delete_eq hsound hstored
    refine ⟨hanswer, .settled (w.stores_changed_of_ne (by decide) _) (.absent ?_)⟩
    rw [w.stores_changed, Store.get?_commit, Change.object, hsound.key_eq hstored]
    exact if_pos rfl
  refine hdeleted.bind ?_
  rintro answer v ⟨rfl, houtcome⟩
  exact succeeds_record _ _ _ _ _ houtcome

theorem succeeds_gameServer_of_none (hnone : (w.stores .gameServer).get? key = none) :
    Succeeds key (gameServer context key) (fun _ v => v = w) w := by
  have hcached : Succeeds key (cached .gameServer key) (fun found v => found = none ∧ v = w) w :=
    succeeds_cached ⟨hnone, rfl⟩
  refine hcached.bind ?_
  rintro found v ⟨rfl, rfl⟩
  exact succeeds_pure rfl

theorem succeeds_gameServer_of_terminating (hstored : (w.stores .gameServer).get? key = some g)
    (hgoing : Resource.isTerminating g = true) :
    Succeeds key (gameServer context key) (fun _ v => v = w) w := by
  have hcached : Succeeds key (cached .gameServer key) (fun found v => found = some g ∧ v = w) w :=
    succeeds_cached ⟨hstored, rfl⟩
  refine hcached.bind ?_
  rintro found v ⟨rfl, rfl⟩
  simp only [hgoing, if_true]
  exact succeeds_pure rfl

/-- A pass over a settled instance leaves the world as it is. -/
theorem succeeds_gameServer_of_settled (h : w.Settled key) :
    Succeeds key (gameServer context key) (fun _ v => v = w) w := by
  cases h with
  | absent hnone => exact succeeds_gameServer_of_none context hnone
  | terminating hstored hgoing =>
    exact succeeds_gameServer_of_terminating context hstored hgoing
  | idle h => exact succeeds_idle context h

/-- A pass that ends well settles the instance or makes its pod, and one that fails leaves what is
stored. -/
theorem keeps_gameServer_outcome (hsound : (w.stores .gameServer).Sound) :
    (gameServer context key).run.Keeps (World.alone key)
      (Ends (fun _ v => w.Outcome key v) fun _ v => v.stores = w.stores) w := by
  have hleft (hsettled : w.Settled key) : Succeeds key (gameServer context key)
      (fun _ v => w.Outcome key v) w := by
    refine (succeeds_gameServer_of_settled context hsettled).mono ?_
    rintro _ v rfl
    exact .settled rfl hsettled
  cases hget : (w.stores .gameServer).get? key with
  | none => exact (hleft (.absent hget)).ends
  | some g =>
    cases hawake : Resource.isTerminating g with
    | true => exact (hleft (.terminating hget hawake)).ends
    | false =>
      have hkey : Resource.key g = key := hsound.key_eq hget
      refine keeps_gameServer context hget hawake
        (fun _ => (succeeds_deleteDrained_settled hsound hget).ends)
        (fun hundrained hnone => ?_) fun pod hundrained hsome => ?_
      · exact keeps_createPod context ⟨hget, hkey, hawake, hundrained⟩
          (Pod.select?_eq_none_iff.1 hnone)
      · exact keeps_observePod context ⟨hget, hkey, hawake, hundrained⟩ hsome

/-- A pass after the one that has made the pod settles the instance. -/
theorem succeeds_gameServer_of_unobserved (h : w.Unobserved key g p) :
    Succeeds key (gameServer context key) (fun _ v => ∃ g', v.Idle key g' ∧ g'.spec = g.spec ∧
      v.stores .pod = w.stores .pod) w := by
  have hselect : Pod.select? (w.boundPods key) = some p := by
    rw [h.pods, Pod.select?, List.find?_singleton]
    split <;> rfl
  have hobservation : w.observation? p = some ⟨p.status.phase, none, none⟩ := by
    simp only [World.observation?, h.unscheduled, Option.filter_none]
  refine succeeds_gameServer context h.stored h.awake (fun hdrained => ?_) (fun _ hnone => ?_)
    fun pod _ hsome => ?_
  · rw [h.undrained] at hdrained
    cases hdrained
  · rw [hselect] at hnone
    cases hnone
  · obtain rfl : p = pod := Option.some.inj (hselect.symm.trans hsome)
    exact succeeds_observed context h.toAlive hsome hobservation

end Pass

/-! ## Passes in succession -/

namespace World

/-- Passes over the instance, one after the other and with whatever settings, may end with these
results, and in this world. -/
inductive Rounds (w : World) (key : Key) : List (Except PassError Unit) → World → Prop where
  | nil : Rounds w key [] w
  | snoc {results : List (Except PassError Unit)} {result : Except PassError Unit} {v u : World}
    (context : PassContext) (h : Rounds w key results v)
    (hpass : (Pass.gameServer context key).run.Lone key v result u) :
    Rounds w key (results ++ [result]) u

/-- Where passes have led of which so many have ended well. -/
inductive Stage (w : World) (key : Key) (v : World) : Nat → Prop where
  | waiting (h : v.stores = w.stores) : Stage w key v 0
  | lodged {g : GameServer} {p : Pod} (hgains : w.Gains key p v) (h : v.Unobserved key g p) :
    Stage w key v 1
  | settled (n : Nat) (h : v.Settled key)
    (hpods : v.stores .pod = w.stores .pod ∨ ∃ p, w.Gains key p v) : Stage w key v (n + 1)

theorem Gains.of_spec_eq {g' : GameServer} (h : w.Gains key p v)
    (hstored : (v.stores .gameServer).get? key = some g)
    (hstored' : (u.stores .gameServer).get? key = some g') (hspec : g'.spec = g.spec)
    (hpods : u.stores .pod = v.stores .pod) : w.Gains key p u := by
  obtain ⟨g'', hg, hneeds, hports⟩ := h.ports
  obtain rfl : g = g'' := Option.some.inj (hstored.symm.trans hg)
  refine ⟨h.vacant, hpods.trans h.pods, h.key_eq, h.bound, g', hstored', ?_, by rw [hspec, hports]⟩
  rw [← hneeds, GameServer.needsHostPorts, GameServer.needsHostPorts, hspec]
  refine congrArg (g.spec.template.ports.any ·) (funext fun p => ?_)
  rw [GameServer.awaitsHostPort, GameServer.awaitsHostPort, GameServer.exposes,
    GameServer.exposes, hspec]

/-- A pass that ends well leads a stage on, and a pass fails at the first stage only. -/
theorem Stage.step {context : PassContext} {n : Nat} {result : Except PassError Unit}
    (h : w.Stage key v n) (hsound : (w.stores .gameServer).Sound)
    (hpass : (Pass.gameServer context key).run.Lone key v result u) :
    w.Stage key u (n + [result].countP Except.isOk) := by
  cases h with
  | waiting h =>
    have houtcome := Lone.of_keeps (keeps_gameServer_outcome context (h ▸ hsound)) hpass
    have hpods : v.stores .pod = w.stores .pod := by rw [h]
    cases result with
    | ok _ =>
      cases Outcome.of_pods_eq hpods houtcome with
      | settled hsame hsettled => exact .settled 0 hsettled (.inl hsame)
      | lodged hgains hlodged => exact .lodged hgains hlodged
    | error e => exact .waiting (Eq.trans houtcome h)
  | lodged hgains h =>
    obtain ⟨_, rfl, g', hidle, hspec, hpods⟩ :=
      Lone.of_succeeds (succeeds_gameServer_of_unobserved context h) hpass
    exact .settled 1 (.idle hidle)
      (.inr ⟨_, hgains.of_spec_eq h.stored hidle.stored hspec hpods⟩)
  | settled n h hpods =>
    obtain ⟨_, rfl, rfl⟩ := Lone.of_succeeds (succeeds_gameServer_of_settled context h) hpass
    exact .settled (n + 1) h hpods

theorem Rounds.stage {results : List (Except PassError Unit)} (h : w.Rounds key results v)
    (hsound : (w.stores .gameServer).Sound) : w.Stage key v (results.countP Except.isOk) := by
  induction h with
  | nil => exact .waiting rfl
  | snoc context _ hpass ih =>
    rw [List.countP_append]
    exact ih.step hsound hpass

/-- The instance shows what there is to know of its pod, which is the first of those that run, or
else the first of all. -/
structure Mirrors (w : World) (key : Key) (g : GameServer) (pod : Pod) : Prop where
  chosen : (w.boundPods key).find? (fun p => p.status.phase = .running) = some pod ∨
    (∀ p ∈ w.boundPods key, p.status.phase ≠ .running) ∧ (w.boundPods key).head? = some pod
  phase : g.status.podPhase = some pod.status.phase
  unscheduled : pod.spec.nodeName = none ∨ pod.spec.nodeName = some "" →
    g.status.nodeName = none ∧ g.status.publicIp = none
  /-- The address is the first external one of the node, or else the first internal one. -/
  scheduled : ∀ node, pod.spec.nodeName = some node → node ≠ "" →
    g.status.nodeName = some node ∧ ∃ n address, (w.stores .node).get? ⟨"", node⟩ = some n ∧
      g.status.publicIp = some address ∧ (n.address? .external = some address ∨
        n.address? .external = none ∧ n.address? .internal = some address)

/-- What is observed of a pod is its phase, and the node that it is on with the address of it. -/
theorem observation?_cases {pod : Pod} {o : Observation} (h : w.observation? pod = some o) :
    (pod.spec.nodeName.filter (· ≠ "") = none ∧ o = ⟨pod.status.phase, none, none⟩) ∨
    ∃ node n address, pod.spec.nodeName.filter (· ≠ "") = some node ∧
      (w.stores .node).get? ⟨"", node⟩ = some n ∧ n.reachableAddress? = some address ∧
      o = ⟨pod.status.phase, some address, some node⟩ := by
  unfold observation? at h
  cases hnode : pod.spec.nodeName.filter (· ≠ "") with
  | none =>
    simp only [hnode] at h
    exact .inl ⟨rfl, (Option.some.inj h).symm⟩
  | some node =>
    simp only [hnode] at h
    obtain ⟨address, haddress, rfl⟩ := Option.map_eq_some_iff.1 h
    obtain ⟨n, hn, hreachable⟩ := Option.bind_eq_some_iff.1 haddress
    exact .inr ⟨node, n, address, rfl, hn, hreachable, rfl⟩

/-- An idle instance that has a pod shows what there is to know of it. -/
theorem Idle.mirrors (h : w.Idle key g) (hpods : w.boundPods key ≠ []) :
    ∃ pod, w.Mirrors key g pod := by
  rcases housed_iff.1 h.housed with ⟨hnone, -, -⟩ | ⟨pod, o, hsome, hobservation, hchange⟩
  · exact absurd (Pod.select?_eq_none_iff.1 hnone) hpods
  obtain ⟨hphase, haddress, hnode⟩ := Observation.change_eq_none_iff.1 hchange
  have hchosen := (Option.or_eq_some_iff.1 hsome).imp_right fun hfirst =>
    And.imp_left (fun hnone p hp => by simpa using List.find?_eq_none.1 hnone p hp) hfirst
  rcases observation?_cases hobservation with
    ⟨hfilter, rfl⟩ | ⟨node, n, address, hfilter, hn, hreachable, rfl⟩
  · refine ⟨pod, hchosen, hphase, fun _ => ⟨hnode, haddress⟩, fun node hscheduled hne => ?_⟩
    rw [hscheduled, Option.filter_some_pos (by simpa using hne)] at hfilter
    cases hfilter
  · obtain ⟨hscheduled, hne⟩ := Option.filter_eq_some_iff.1 hfilter
    refine ⟨pod, hchosen, hphase, fun hunscheduled => ?_, fun node' hscheduled' _ => ?_⟩
    · rcases hunscheduled with hnone | hempty
      · rw [hscheduled] at hnone
        cases hnone
      · rw [hscheduled] at hempty
        cases hempty
        simp at hne
    · obtain rfl := Option.some.inj (hscheduled.symm.trans hscheduled')
      exact ⟨hnode, n, address, hn, haddress, Option.or_eq_some_iff.1 hreachable⟩

theorem Settled.idle_of_stored (h : w.Settled key)
    (hstored : (w.stores .gameServer).get? key = some g)
    (hawake : Resource.isTerminating g = false) : w.Idle key g := by
  cases h with
  | absent hnone =>
    rw [hnone] at hstored
    cases hstored
  | terminating hstored' hgoing =>
    obtain rfl := Option.some.inj (hstored.symm.trans hstored')
    rw [hawake] at hgoing
    cases hgoing
  | idle hidle =>
    obtain rfl := Option.some.inj (hidle.stored.symm.trans hstored)
    exact hidle

/-- Any number of passes over a settled instance leave the world as it is. -/
theorem Settled.succeeds_forM (h : v.Settled key) (contexts : List PassContext) :
    Succeeds key (contexts.forM fun context => Pass.gameServer context key)
      (fun _ u => u = v) v := by
  induction contexts with
  | nil => exact succeeds_pure rfl
  | cons context contexts ih =>
    refine (succeeds_gameServer_of_settled context h).bind ?_
    rintro _ u rfl
    exact ih

/-- Whatever is stored at first, when two passes over an instance have ended well, every further
one leaves the world as it is. All of them together have made one pod at most, which has the host
ports of the instance. An instance that is there and not about to go, and has a pod, shows what
there is to know of it. -/
theorem Rounds.settled_of_two {results : List (Except PassError Unit)}
    (hsound : (w.stores .gameServer).Sound) (h : w.Rounds key results v)
    (htwo : 2 ≤ results.countP Except.isOk) :
    (∀ contexts : List PassContext,
      Succeeds key (contexts.forM fun context => Pass.gameServer context key)
        (fun _ u => u = v) v) ∧
    (v.stores .pod = w.stores .pod ∨ ∃ p, w.Gains key p v) ∧
    ∀ g, (v.stores .gameServer).get? key = some g → Resource.isTerminating g = false →
      v.boundPods key ≠ [] → ∃ pod, v.Mirrors key g pod := by
  obtain ⟨n, hcount⟩ : ∃ n, results.countP Except.isOk = n + 2 :=
    ⟨_, (Nat.sub_add_cancel htwo).symm⟩
  have hstage := h.stage hsound
  rw [hcount] at hstage
  cases hstage with
  | settled _ hsettled hpods =>
    refine ⟨hsettled.succeeds_forM, hpods, fun g hstored hawake hbound => ?_⟩
    exact (hsettled.idle_of_stored hstored hawake).mirrors hbound

/-- When a pass has ended well no later one fails. -/
theorem Stage.succeeds {n : Nat} (h : w.Stage key v (n + 1)) (context : PassContext) :
    Succeeds key (Pass.gameServer context key) (fun _ _ => True) v := by
  cases h with
  | lodged _ h => exact (succeeds_gameServer_of_unobserved context h).mono fun _ _ _ => trivial
  | settled _ h => exact (succeeds_gameServer_of_settled context h).mono fun _ _ _ => trivial

/-- An instance without a pod is given a host port and a pod by the first pass, and the second one
observes the pod. -/
theorem settled_of_two_hall :
    let w := hall (hallServer [Sample.gamePort] none) .empty
    ∃ v, w.Rounds Sample.arenaKey [.ok (), .ok ()] v ∧
      (∀ contexts : List PassContext,
        Succeeds Sample.arenaKey
          (contexts.forM fun context => Pass.gameServer context Sample.arenaKey)
          (fun _ u => u = v) v) ∧
      (v.stores .pod = w.stores .pod ∨ ∃ p, w.Gains Sample.arenaKey p v) ∧
      ∀ g, (v.stores .gameServer).get? Sample.arenaKey = some g →
        Resource.isTerminating g = false → v.boundPods Sample.arenaKey ≠ [] →
        ∃ pod, v.Mirrors Sample.arenaKey g pod := by
  intro w
  have hsound : (w.stores .gameServer).Sound := sound_hall _ _ _
  have hprovides : w.Provides Sample.arenaKey (hallServer [Sample.gamePort] none) :=
    ⟨Registry.serving_ofPool _, by decide +kernel, by decide +kernel⟩
  obtain ⟨_, u, hfirst, -⟩ := Lone.exists_of_succeeds
    (Pass.succeeds_gameServer_of_provides default hsound rfl rfl hprovides)
  have hone : w.Rounds Sample.arenaKey [.ok ()] u := .snoc default .nil hfirst
  obtain ⟨_, v, hsecond, -⟩ := Lone.exists_of_succeeds ((hone.stage hsound).succeeds default)
  have htwo : w.Rounds Sample.arenaKey [.ok (), .ok ()] v := .snoc default hone hsecond
  exact ⟨v, htwo, htwo.settled_of_two hsound le_rfl⟩

end World

end GameFleet
