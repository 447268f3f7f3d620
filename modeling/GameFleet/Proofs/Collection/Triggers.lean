import GameFleet.Proofs.Collection.Convergence
import GameFleet.Proofs.Pass.Lone

/-!
# What calls for a pass over a collection

A pass over a collection that ends well without a write has found nothing to do
(`Pass.atRest_of_lone`) : whatever it finds to do, it writes. So after one change it can find
something to do only if the change is one that a pass reads of.

Of instances it reads which are members, and their healths and the phases of their pods
(`World.sights`). A change that calls for no pass leaves all of this as it was, in its order
(`World.sights_changed`). Of the collection it reads what it asks for and how many failures it has
counted, and fewer failures or another limit call for a pass. More failures do not, and then
nothing is to be done : a collection at rest has failed members only if it needs intervention.

`Reconciler.collection_triggered` puts this together.
-/

namespace GameFleet

variable {owner key : Key} {w v : World} {c : Collection}

/-! ## What a pass that has something to do writes -/

namespace Pass

open Program (Lone)

variable (context : PassContext) {g : GameServer} {gs : List GameServer}

theorem detach_of_isMember (hkey : Resource.key c = key) (hg : g.IsMember key) :
    detach c.metadata.name g = some (g.detached c.metadata.name) := by
  subst hkey
  exact if_pos hg.2

/-- A failed member is written or deleted. -/
theorem wrote_handleFailure (hsound : (w.stores .gameServer).Sound) (hkey : Resource.key c = key)
    (hg : g ∈ w.members key) {r : Except PassError Bool}
    (h : Lone owner (handleFailure context c (Resource.key g)).run w r v) : w.Wrote v := by
  obtain ⟨hstored, hmember⟩ := (World.mem_members hsound).1 hg
  unfold handleFailure at h
  cases hbehavior : c.spec.failBehavior with
  | remove =>
    simp only [hbehavior] at h
    exact Lone.wrote_of_first h fun r u hmodify =>
      wrote_modify hstored (detach_of_isMember hkey hmember) rfl rfl hmodify
  | delete =>
    simp only [hbehavior] at h
    refine Lone.wrote_of_first h fun r u hask => ?_
    obtain ⟨answer, rfl, hanswer⟩ := lone_ask hask
    obtain ⟨-, rfl⟩ := hanswer.delete_eq hsound hstored
    exact w.wrote_changed _ _

theorem wrote_handleFailures (hsound : (w.stores .gameServer).Sound) (hkey : Resource.key c = key)
    (hne : gs ≠ []) (hgs : ∀ g ∈ gs, g ∈ w.members key) (hbelow : c.thresholdReached = false)
    {r : Except PassError Unit}
    (h : Lone owner (handleFailures context c (gs.map Resource.key)).run w r v) : w.Wrote v := by
  obtain ⟨g, rest, rfl⟩ := List.exists_cons_of_ne_nil hne
  rw [handleFailures, hbelow] at h
  refine Lone.wrote_of_first h fun r u hall => ?_
  refine Lone.wrote_of_first hall fun r u hone => ?_
  exact wrote_handleFailure context hsound hkey (hgs g List.mem_cons_self) hone

theorem wrote_escalate (hkey : Resource.key c = key)
    (hstored : (w.stores .collection).get? key = some c)
    (hhealth : c.status.health ≠ .needsIntervention) {r : Except PassError Unit}
    (h : Lone owner (escalate context c).run w r v) : w.Wrote v := by
  have hintervene : intervene c = some
      { c with status := { c.status with health := .needsIntervention } } := if_neg hhealth
  unfold escalate at h
  rw [hkey] at h
  exact Lone.wrote_of_first h fun r u hmodify =>
    wrote_modify hstored hintervene hkey rfl hmodify

/-- Who has made a member has stored it. -/
theorem wrote_createMember (h : Lone owner (createMember c).run w (.ok ()) v) : w.Wrote v := by
  obtain ⟨suffix, u, hsuffix, h⟩ := Lone.of_bind_ok h
  obtain ⟨taken, t, htaken, h⟩ := Lone.of_bind_ok h
  obtain ⟨answer, s, hask, h⟩ := Lone.of_bind_ok h
  obtain ⟨answer', heq, hanswer⟩ := lone_ask hask
  cases heq
  cases answer with
  | error cause => exact (not_lone_throw h).elim
  | ok a =>
    cases h
    have hwrote : t.Wrote v := hanswer.wrote_create rfl
    exact hwrote.imp fun kind hlt => ((hsuffix.grows kind).trans (htaken.grows kind)).trans_lt hlt

/-- A member that is picked is written. -/
theorem wrote_detachAll (hsound : (w.stores .gameServer).Sound) (hkey : Resource.key c = key)
    (hg : g ∈ w.members key) {rest : List Key} {r : Except PassError Unit}
    (h : Lone owner (detachAll context c.metadata.name (Resource.key g :: rest)).run w r v) :
    w.Wrote v := by
  obtain ⟨hstored, hmember⟩ := (World.mem_members hsound).1 hg
  have hdetach : detachMarked c.metadata.name g = some
      { g.detached c.metadata.name with status := { g.status with markedForDeletion := true } } := by
    rw [detachMarked, detach_of_isMember hkey hmember]
    rfl
  exact Lone.wrote_of_first h fun r u hmodify => wrote_modify hstored hdetach rfl rfl hmodify

/-- To have another number of members is to write one at least. -/
theorem wrote_scale (hsound : (w.stores .gameServer).Sound) (hkey : Resource.key c = key)
    (hlength : (w.members key).length ≠ c.spec.replicas.toNat)
    (h : Lone owner (scale context c (w.members key)).run w (.ok ()) v) : w.Wrote v := by
  simp only [scale] at h
  split at h
  · next hlt =>
    obtain ⟨_, u, hmade, h⟩ := Lone.of_bind_ok h
    obtain ⟨n, hn⟩ : ∃ n, c.spec.replicas.toNat - (w.members key).length = n + 1 :=
      ⟨_, (Nat.succ_pred_eq_of_pos (Nat.sub_pos_of_lt hlt)).symm⟩
    rw [hn] at hmade
    obtain ⟨_, t, hone, hrest⟩ := Lone.of_bind_ok hmade
    exact h.wrote (hrest.wrote (wrote_createMember hone))
  · next hge =>
    rw [if_pos (by omega)] at h
    obtain ⟨picked, u, hpick, h⟩ := Lone.of_bind_ok h
    obtain ⟨answer, heq, hanswer⟩ := lone_ask hpick
    cases heq
    cases hanswer with
    | pick _ hcount hnodup hlt =>
      -- one place at least is picked, and there is a member at it
      cases picked with
      | nil =>
        rw [List.length_nil] at hcount
        omega
      | cons i places =>
        have hi := hlt i List.mem_cons_self
        have hg : (w.members key)[i] ∈ w.members key := List.getElem_mem hi
        simp only [List.filterMap_cons, List.getElem?_eq_getElem hi, Option.map_some] at h
        obtain ⟨_, t, hdetached, h⟩ := Lone.of_bind_ok h
        exact h.wrote (wrote_detachAll context hsound hkey hg hdetached)

/-- Those of the members that failed. -/
def failedOf (members : List GameServer) : List GameServer :=
  members.filter fun g => g.status.health = .failed

/-- A pass that ends well has written a summary, or it has dealt with what failed, or it has seen
to the number of members unless the collection needs intervention. -/
theorem lone_collection (hstored : (w.stores .collection).get? key = some c)
    (hkey : Resource.key c = key) (hawake : Resource.isTerminating c = false)
    (h : Lone key (collection context key).run w (.ok ()) v) :
    w.Wrote v ∨ (Summary.of (w.members key)).change c = none ∧
      (failedOf (w.members key) ≠ [] ∧ Lone key (handleFailures context c
          ((failedOf (w.members key)).map Resource.key)).run w (.ok ()) v ∨
        failedOf (w.members key) = [] ∧ (c.status.health = .needsIntervention ∨
          c.status.health ≠ .needsIntervention ∧
            Lone key (scale context c (w.members key)).run w (.ok ()) v)) := by
  obtain ⟨found, u, hcached, h⟩ := Lone.of_bind_ok h
  obtain ⟨hfound, rfl⟩ := lone_cached hcached
  cases hfound
  simp only [hstored, hawake] at h
  obtain ⟨members, u, hlist, h⟩ := Lone.of_bind_ok h
  obtain ⟨hmembers, rfl⟩ := lone_list hlist
  obtain rfl : members = u.members key := by
    cases hmembers
    rw [← hkey]
    rfl
  obtain ⟨found, t, hmodify, h⟩ := Lone.of_bind_ok h
  have hkept : ∀ b, (Summary.of (u.members key)).change c = some b →
      Resource.key b = key ∧ Resource.version b = Resource.version c := by
    intro b hb
    have hget := Summary.getD_change (Summary.of (u.members key)) c
    rw [hb, Option.getD_some] at hget
    rw [hget]
    exact ⟨hkey, rfl⟩
  rcases lone_modify hstored hkept hmodify with ⟨hnone, hfound, rfl⟩ | ⟨-, hwrote⟩
  · cases hfound
    refine .inr ⟨hnone, ?_⟩
    simp only at h
    split at h
    · next hfailed => exact .inl ⟨by simpa [failedOf] using hfailed, h⟩
    · next hnofailed =>
      refine .inr ⟨by simpa [failedOf] using hnofailed, ?_⟩
      split at h
      · next hneeds => exact .inl hneeds
      · next hhealth => exact .inr ⟨hhealth, h⟩
  · exact .inl (h.wrote hwrote)

/-- To deal with members that failed is to write, unless the need for intervention stands. -/
theorem escalated_of_handleFailures (hsound : (w.stores .gameServer).Sound)
    (hkey : Resource.key c = key) (hstored : (w.stores .collection).get? key = some c)
    {gs : List GameServer} (hgs : gs ≠ []) (hmembers : ∀ g ∈ gs, g ∈ w.members key)
    (h : Lone owner (handleFailures context c (gs.map Resource.key)).run w (.ok ()) v)
    (hsame : v.stores = w.stores) :
    c.status.health = .needsIntervention ∧ c.thresholdReached = true := by
  cases hreached : c.thresholdReached with
  | false =>
    exact absurd hsame (wrote_handleFailures context hsound hkey hgs hmembers hreached h).ne
  | true =>
    rw [handleFailures_of_reached context hreached] at h
    refine ⟨?_, rfl⟩
    by_contra hhealth
    exact (wrote_escalate context hkey hstored hhealth h).ne hsame

/-- A pass that ends well without a write has found nothing to do. -/
theorem atRest_of_lone (hservers : (w.stores .gameServer).Sound)
    (hcollections : (w.stores .collection).Sound)
    (hstored : (w.stores .collection).get? key = some c)
    (hawake : Resource.isTerminating c = false)
    (h : Lone key (collection context key).run w (.ok ()) v) (hsame : v.stores = w.stores) :
    w.AtRest key c := by
  have hkey : Resource.key c = key := hcollections.key_eq hstored
  rcases lone_collection context hstored hkey hawake h with hwrote |
    ⟨hnone, ⟨hfailed, hhandled⟩ | ⟨hnofailed, hneeds | ⟨hhealth, hscaled⟩⟩⟩
  · exact absurd hsame hwrote.ne
  · have hescalated := escalated_of_handleFailures context hservers hkey hstored hfailed
      (fun g hg => (List.mem_filter.1 hg).1) hhandled hsame
    exact ⟨hstored, hkey, hawake, .inl hescalated, Summary.change_eq_none_iff.1 hnone⟩
  · have hsummed := Summary.change_eq_none_iff.1 hnone
    have hfor : (Summary.of (w.members key)).healthFor c = .needsIntervention := by
      rw [← hneeds, hsummed]
      rfl
    have hreached := Summary.thresholdReached_of_healthFor (Summary.health_of_ne _) hfor
    exact ⟨hstored, hkey, hawake, .inl ⟨hneeds, hreached⟩, hsummed⟩
  · have hlength : (w.members key).length = c.spec.replicas.toNat := by
      by_contra hlength
      exact (wrote_scale context hservers hkey hlength hscaled).ne hsame
    have hwell : ∀ g ∈ w.members key, g.status.health ≠ .failed := by
      simpa [failedOf] using hnofailed
    exact ⟨hstored, hkey, hawake, .inr ⟨hhealth, hlength, hwell⟩,
      Summary.change_eq_none_iff.1 hnone⟩

end Pass

/-! ## What a pass reads of instances -/

namespace GameServer

/-- What a pass over the collection with this key reads of an instance : nothing, unless the
instance is a member. -/
def sight? (key : Key) (g : GameServer) : Option (Health × Option PodPhase) :=
  if g.IsMember key then some (g.status.health, g.status.podPhase) else none

theorem sight?_of_not_isMember {g : GameServer} (h : ¬g.IsMember key) : g.sight? key = none :=
  if_neg h

/-- An update that the control plane does not act on is one that no collection sees. -/
theorem sight?_eq_of_not_changed {old new : GameServer} (h : old.changed new = false)
    (hns : old.metadata.ns = new.metadata.ns) : old.sight? key = new.sight? key := by
  simp only [changed, decide_eq_false_iff_not, not_or, not_not] at h
  obtain ⟨-, hhealth, hphase, -, -, -, -, hlabels⟩ := h
  have hmember : old.IsMember key ↔ new.IsMember key := by
    rw [IsMember, IsMember, collection?, collection?, Meta.label?, Meta.label?, hns, hlabels]
  simp only [sight?, hmember, hhealth, hphase]

end GameServer

namespace World

/-- What a pass over a collection reads of its members, in the order in which they are listed. -/
def sights (w : World) (key : Key) : List (Health × Option PodPhase) :=
  (w.members key).map fun g => (g.status.health, g.status.podPhase)

theorem sights_eq (w : World) (key : Key) :
    w.sights key = (w.stores .gameServer).objects.values.filterMap (GameServer.sight? key) := by
  rw [sights, members_eq_filter]
  induction (w.stores .gameServer).objects.values with
  | nil => rfl
  | cons g gs ih =>
    rw [List.filter_cons, List.filterMap_cons]
    by_cases hg : g.IsMember key
    · simp [GameServer.sight?, hg, ih]
    · simp [GameServer.sight?, hg, ih]

end World

/-- The status is summed up from no more than that. -/
theorem Pass.Summary.of_eq_of_sights (h : v.sights key = w.sights key) :
    of (v.members key) = of (w.members key) := by
  have hsights : (v.members key).map (fun g => (g.status.health, g.status.podPhase)) =
      (w.members key).map fun g => (g.status.health, g.status.podPhase) := h
  have hhealths : (v.members key).map (·.status.health) =
      (w.members key).map (·.status.health) := by
    simpa only [List.map_map, Function.comp_def] using congrArg (List.map Prod.fst) hsights
  have hphases : (v.members key).map (fun g => g.status.podPhase.getD .pending) =
      (w.members key).map fun g => g.status.podPhase.getD .pending := by
    simpa only [List.map_map, Function.comp_def] using
      congrArg (List.map fun s => s.2.getD .pending) hsights
  have hcount : Collection.availableOf (v.members key) =
      Collection.availableOf (w.members key) := by
    have hwell := congrArg (List.countP fun s => s.1 = .healthy ∧ s.2 = some .running) hsights
    rw [List.countP_map, List.countP_map] at hwell
    exact congrArg Collection.countOf hwell
  rw [of, of, Collection.healthOf, Collection.healthOf, hhealths, Collection.podStateOf,
    Collection.podStateOf, hphases, hcount]

/-- A collection at rest stays so when its members look alike and no more is asked for, even if
more failures were counted. -/
theorem World.AtRest.of_sights {c' : Collection} (h : w.AtRest key c)
    (hstored : (v.stores .collection).get? key = some c') (hkey : Resource.key c' = key)
    (hawake : Resource.isTerminating c' = false) (hsights : v.sights key = w.sights key)
    (hreplicas : c'.spec.replicas = c.spec.replicas)
    (hlimit : c'.spec.maxFailures = c.spec.maxFailures)
    (hstatus : c'.status = { c.status with timesFailed := c'.status.timesFailed })
    (htimes : c.status.timesFailed ≤ c'.status.timesFailed) : v.AtRest key c' := by
  have hhealth : c'.status.health = c.status.health := by rw [hstatus]
  have hreached : c.thresholdReached → c'.thresholdReached := by
    simp only [Collection.thresholdReached, decide_eq_true_eq, hlimit]
    exact fun hle => UInt32.le_trans hle htimes
  have hlength : (v.members key).length = (w.members key).length := by
    simpa [World.sights] using congrArg List.length hsights
  refine ⟨hstored, hkey, hawake, ?_, ?_⟩
  · rcases h.served with ⟨hneeds, hlimited⟩ | ⟨hwell, hfull, hfailed⟩
    · exact .inl ⟨hhealth.trans hneeds, hreached hlimited⟩
    · refine .inr ⟨hhealth ▸ hwell, by rw [hlength, hfull, hreplicas], fun g hg hgone => ?_⟩
      have hsight : (g.status.health, g.status.podPhase) ∈ w.sights key :=
        hsights ▸ List.mem_map_of_mem hg
      obtain ⟨g', hg', heq⟩ := List.mem_map.1 hsight
      exact hfailed g' hg' ((congrArg Prod.fst heq).trans hgone)
  · rw [Pass.Summary.of_eq_of_sights hsights]
    set s := Pass.Summary.of (w.members key)
    have hfor : s.healthFor c' = s.healthFor c := by
      have hneeds : c.status.health = .needsIntervention → c.thresholdReached := fun hneeds => by
        have hsummed : c.status.health = s.healthFor c := congrArg (·.health) h.summed
        exact Pass.Summary.thresholdReached_of_healthFor (Pass.Summary.health_of_ne _)
          (hsummed ▸ hneeds)
      by_cases hc : c.status.health = .needsIntervention
      · rw [Pass.Summary.healthFor, Pass.Summary.healthFor, hhealth,
          if_pos ⟨hc, hreached (hneeds hc)⟩, if_pos ⟨hc, hneeds hc⟩]
      · rw [Pass.Summary.healthFor, Pass.Summary.healthFor, hhealth,
          if_neg (fun hboth => hc hboth.1), if_neg (fun hboth => hc hboth.1)]
    rw [Pass.Summary.summed, hfor]
    conv_lhs => rw [hstatus, h.summed]
    rfl

/-! ## Changes that call for no pass -/

theorem Key.mem_sort {ks : List Key} (h : key ∈ ks) : key ∈ Key.sort ks := by
  have hfold : ∀ (ks : List Key) (t : Table Key Unit), key ∈ ks ∨ (t.find? key).isSome →
      (((ks.map fun k => (k, ())).foldl (fun t e => t.insert e.1 e.2) t).find? key).isSome := by
    intro ks
    induction ks with
    | nil => exact fun t ht => ht.resolve_left List.not_mem_nil
    | cons k ks ih =>
      intro t ht
      refine ih _ ?_
      rw [Table.find?_insert]
      by_cases hk : k = key
      · exact .inr (by simp [hk])
      · simpa [hk, Ne.symm hk] using ht
  exact Table.mem_keys.2 (hfold ks .empty (.inl h))

namespace Trigger

/-- A member concerns its collection. -/
theorem collectionOf_of_isMember {g : GameServer} (h : g.IsMember key) :
    collectionOf g = some key := by
  rw [collectionOf, h.2, h.1]

/-- A change of an instance that calls for no pass leaves as much to be seen of it. -/
theorem sight?_eq_of_not_mem {s : Store GameServer} (hsound : s.Sound) {change : Change GameServer}
    (hadmits : s.Admits change) (h : key ∉ collectionByGameServer change) :
    change.before?.bind (GameServer.sight? key) = change.after?.bind (GameServer.sight? key) := by
  have hnot {g : GameServer} (hg : key ∉ (collectionOf g).toList) : g.sight? key = none :=
    GameServer.sight?_of_not_isMember fun hmember => hg (by simp [collectionOf_of_isMember hmember])
  cases change with
  | added g => exact (hnot h).symm
  | deleted g => exact hnot h
  | updated old new =>
    rw [collectionByGameServer] at h
    split at h
    · have hboth := mt Key.mem_sort h
      rw [List.mem_append, not_or] at hboth
      exact (hnot hboth.1).trans (hnot hboth.2).symm
    · next hchanged =>
      have hkey : Resource.key old = Resource.key new := hsound.key_eq hadmits.before
      exact GameServer.sight?_eq_of_not_changed (Bool.eq_false_of_not_eq_true hchanged)
        (congrArg Key.ns hkey)

end Trigger

theorem World.sights_changed (hsound : (w.stores .gameServer).Sound) {change : Change GameServer}
    (hadmits : (w.stores .gameServer).Admits change)
    (h : key ∉ Trigger.collectionByGameServer change) :
    (w.changed .gameServer change).sights key = w.sights key := by
  rw [sights_eq, sights_eq, stores_changed]
  exact Store.filterMap_commit hadmits (Trigger.sight?_eq_of_not_mem hsound hadmits h)

/-! ## Every change that gives a pass something to do -/

/-- A change of an instance, or of what the collection asks for and how often it has failed. -/
inductive Collection.Concerns (c : Collection) : (kind : Kind) → Change kind.Obj → Prop where
  | server (change : Change GameServer) : Concerns c .gameServer change
  | asked (new : Collection) (timesFailed : UInt32)
    (hstatus : new.status = { c.status with timesFailed }) : Concerns c .collection (.updated c new)

/-- A pass over a collection that is about to go does nothing. -/
theorem Pass.succeeds_terminating (context : PassContext)
    (hstored : (w.stores .collection).get? key = some c)
    (hgoing : Resource.isTerminating c = true) :
    Succeeds key (collection context key) (fun _ v => v = w) w := by
  have hcached : Succeeds key (cached .collection key)
      (fun found v => found = some c ∧ v = w) w := succeeds_cached ⟨hstored, rfl⟩
  refine hcached.bind ?_
  rintro found v ⟨rfl, rfl⟩
  simp only [hgoing]
  exact succeeds_pure rfl

/-- What was not asked for again leaves a collection at rest. -/
theorem World.AtRest.changed (hservers : (w.stores .gameServer).Sound)
    (hcollections : (w.stores .collection).Sound) (h : w.AtRest key c) {kind : Kind}
    {change : Change kind.Obj} (hadmits : (w.stores kind).Admits change)
    (hconcerns : c.Concerns kind change)
    (hnot : key ∉ Reconciler.collection.triggered kind change) :
    ∃ c', ((w.changed kind change).stores .collection).get? key = some c' ∧
      (Resource.isTerminating c' = false → (w.changed kind change).AtRest key c') := by
  cases hconcerns with
  | server change =>
    have hsame : (w.changed .gameServer change).stores .collection = w.stores .collection :=
      w.stores_changed_of_ne (by decide) _
    have hstored : ((w.changed .gameServer change).stores .collection).get? key = some c := by
      rw [hsame, h.stored]
    exact ⟨c, hstored, fun hawake => h.of_sights hstored h.key_eq hawake
      (sights_changed hservers hadmits hnot) rfl rfl rfl (UInt32.le_refl _)⟩
  | asked new timesFailed hstatus =>
    have hold : Resource.key c = Resource.key new := hcollections.key_eq hadmits.before
    have hkey : Resource.key new = key := hold.symm.trans h.key_eq
    have hstored : ((w.changed .collection (.updated c new)).stores .collection).get? key =
        some new := by
      rw [w.stores_changed, Store.get?_commit]
      exact if_pos hkey
    have hunchanged : c.changed new = false := Bool.eq_false_of_not_eq_true fun hchanged =>
      hnot (by simp [Reconciler.triggered, Trigger.collectionByCollection, hchanged, hkey])
    simp only [Collection.changed, decide_eq_false_iff_not, not_or, not_not] at hunchanged
    obtain ⟨hreplicas, hlimit, htimes⟩ := hunchanged
    refine ⟨new, hstored, fun hawake => h.of_sights hstored hkey hawake ?_ hreplicas.symm
      hlimit.symm ?_ (UInt32.not_lt.1 htimes)⟩
    · rw [sights, sights, members_of_stores_eq (w.stores_changed_of_ne (by decide) _)]
    · rw [hstatus]

/-- A pass rests if and only if it finds nothing to do. -/
theorem Reconciler.rests_collection_iff {context : PassContext}
    (hservers : (w.stores .gameServer).Sound) (hcollections : (w.stores .collection).Sound)
    (hstored : (w.stores .collection).get? key = some c)
    (hawake : Resource.isTerminating c = false) :
    Reconciler.collection.Rests context key w ↔ w.AtRest key c := by
  constructor
  · rintro ⟨v, hrun, hsame⟩
    exact Pass.atRest_of_lone context hservers hcollections hstored hawake hrun hsame
  · exact fun h => rests_of_succeeds (Pass.succeeds_atRest context h)

/-- A pass over a collection that is not at rest writes something, if there are ports enough. -/
theorem Reconciler.stirs_of_nears {context : PassContext} {left : Nat} (h : w.Nears key c left)
    (hnot : ¬w.AtRest key c) : Reconciler.collection.Stirs context key w := by
  obtain ⟨n, hstands⟩ := h.stands
  refine stirs_of_not_rests (Pass.succeeds_nears context h) fun hrests => hnot ?_
  exact (rests_collection_iff hstands.servers hstands.collections hstands.stored
    hstands.awake).1 hrests

/-- In every state of the stores in which a pass over a collection ends well without a write, and
after every change of an instance, or of what the collection asks for and how often it has failed :
if a pass would write something now, the change has put the collection into the queue. -/
theorem Reconciler.collection_triggered {context context' : PassContext}
    (hservers : (w.stores .gameServer).Sound) (hcollections : (w.stores .collection).Sound)
    (hstored : (w.stores .collection).get? key = some c)
    (hawake : Resource.isTerminating c = false)
    (hrests : Reconciler.collection.Rests context key w) {kind : Kind} {change : Change kind.Obj}
    (hadmits : (w.stores kind).Admits change) (hconcerns : c.Concerns kind change)
    (hstirs : Reconciler.collection.Stirs context' key (w.changed kind change)) :
    key ∈ Reconciler.collection.triggered kind change := by
  have hrest := (rests_collection_iff hservers hcollections hstored hawake).1 hrests
  by_contra hnot
  obtain ⟨c', hstored', hrest'⟩ := hrest.changed hservers hcollections hadmits hconcerns hnot
  refine not_stirs_of_succeeds ?_ hstirs
  cases hgoing : Resource.isTerminating c' with
  | true => exact Pass.succeeds_terminating context' hstored' hgoing
  | false => exact Pass.succeeds_atRest context' (hrest' hgoing)

namespace World

/-- A collection that asks for one member, and whose status says that this is coming up. -/
def yard : Collection :=
  let c := Sample.collection "arena" 1 .remove 5 none
  Store.newborn .empty Sample.birth { c with status := { c.status with podState := some .pending } }

/-- The member, as it is stored. -/
def yardServer : GameServer := Store.newborn .empty Sample.birth (yard.newMember "arena-one")

def yardWorld : World where
  stores
    | .collection => Store.commit .empty (.added yard)
    | .gameServer => Store.commit .empty (.added yardServer)
    | .pod => .empty
    | .node => .empty
  logs _ := []
  registry := Sample.registry []
  departed := []

/-- The member reports that it has failed. -/
def yardFailure : Change GameServer :=
  .updated yardServer ((yardWorld.stores .gameServer).successor yardServer
    { yardServer with status := { yardServer.status with health := .failed } })

theorem atRest_yardWorld : yardWorld.AtRest Sample.arenaKey yard :=
  ⟨rfl, rfl, rfl, .inr ⟨by decide, by decide +kernel, by decide +kernel⟩, by decide +kernel⟩

theorem admits_yardFailure : (yardWorld.stores .gameServer).Admits yardFailure :=
  Store.admits_of_update (Store.update_eq (by decide +kernel) rfl)

theorem stirs_yardFailure :
    Reconciler.collection.Stirs default Sample.arenaKey
      (yardWorld.changed .gameServer yardFailure) := by
  have hcollections : (yardWorld.changed .gameServer yardFailure).stores .collection =
      yardWorld.stores .collection := yardWorld.stores_changed_of_ne (by decide) _
  refine Reconciler.stirs_of_nears (c := yard) (.stored ⟨?_, ?_, ?_, rfl, rfl, ?_, ?_⟩) fun h => ?_
  · rw [stores_changed]
    exact (sound_added _ _).commit admits_yardFailure
  · rw [hcollections]
    exact sound_added _ _
  · rw [hcollections]
    rfl
  · exact Registry.serving_ofPool _
  · decide +kernel
  · exact absurd h.summed (by decide +kernel)

/-- A pass would sum up the failure of a member, and the report of it calls for the pass. -/
theorem yard_triggered :
    Reconciler.collection.Rests default Sample.arenaKey yardWorld ∧
      Reconciler.collection.Stirs default Sample.arenaKey
        (yardWorld.changed .gameServer yardFailure) ∧
      Sample.arenaKey ∈ Reconciler.collection.triggered .gameServer yardFailure := by
  have hrests : Reconciler.collection.Rests default Sample.arenaKey yardWorld :=
    (Reconciler.rests_collection_iff (sound_added _ _) (sound_added _ _) rfl rfl).2 atRest_yardWorld
  exact ⟨hrests, stirs_yardFailure, Reconciler.collection_triggered (c := yard) (sound_added _ _)
    (sound_added _ _) rfl rfl hrests admits_yardFailure (.server _) stirs_yardFailure⟩

end World

end GameFleet
