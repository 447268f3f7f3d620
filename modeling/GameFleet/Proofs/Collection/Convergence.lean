import GameFleet.Plane.Sample
import GameFleet.Proofs.Collection.Upkeep

/-!
# Passes over a collection converge

Whatever is stored at first, three passes over a collection settle it, when they run alone
and there are ports enough for the members that it lacks (`Pass.converges`). A settled
collection either needs intervention, its failures having reached the limit, or has as many
members as it asks for, of which none has failed. Its status sums up its members, and every
further pass leaves the world as it is.

`World.Nears` counts the passes that are still needed. The first pass deals with failed
members and does nothing else then, the second one scales, and the third one sums up what
the second one has made.
-/

namespace GameFleet

/-! ## Summaries -/

namespace Pass.Summary

/-- The status of a collection whose members come to a summary. -/
def summed (s : Summary) (c : Collection) : CollectionStatus :=
  { c.status with health := s.healthFor c, podState := some s.podState, available := s.available }

variable {s : Summary} {c c' : Collection}

theorem change_eq_none_iff : s.change c = none ↔ c.status = s.summed c := by
  obtain ⟨m, spec, ⟨health, podState, available, timesFailed⟩⟩ := c
  simp [change, summed]

theorem getD_change (s : Summary) (c : Collection) :
    (s.change c).getD c = { c with status := s.summed c } := by
  cases hchange : s.change c with
  | none =>
    rw [Option.getD_none, ← change_eq_none_iff.1 hchange]
  | some b =>
    rw [eq_of_change hchange]
    rfl

/-- The need for intervention that is summed up has its reason. -/
theorem thresholdReached_of_healthFor (hhealth : s.health ≠ .needsIntervention)
    (h : s.healthFor c = .needsIntervention) : c.thresholdReached = true := by
  unfold healthFor at h
  split at h
  · next hneeds => exact hneeds.2
  · exact absurd h hhealth

/-- What is summed up once stays so. -/
theorem summed_eq (hhealth : s.health ≠ .needsIntervention) (hspec : c'.spec = c.spec)
    (hstatus : c'.status = s.summed c) : c'.status = s.summed c' := by
  have hthreshold : c'.thresholdReached = c.thresholdReached := by
    rw [Collection.thresholdReached, Collection.thresholdReached, hspec, hstatus]
    rfl
  have hfor : s.healthFor c' = s.healthFor c := by
    have hc' : c'.status.health = s.healthFor c := congrArg (·.health) hstatus
    unfold healthFor at hc' ⊢
    rw [hthreshold, hc']
    split
    · next hneeds => simp [hneeds]
    · simp [hhealth]
  rw [summed, hfor, hstatus]
  rfl

end Pass.Summary

/-! ## Settled collections -/

/-- The members of the collection that have not failed are so many less than it asks for. -/
def Collection.shortfall (c : Collection) (members : List GameServer) : Nat :=
  c.spec.replicas.toNat - members.countP fun g => g.status.health ≠ .failed

namespace World

/-- The collection needs intervention, or it has the members it asks for and none has failed. -/
def Served (w : World) (key : Key) (c : Collection) : Prop :=
  c.status.health = .needsIntervention ∧ c.thresholdReached ∨
    c.status.health ≠ .needsIntervention ∧ (w.members key).length = c.spec.replicas.toNat ∧
      ∀ g ∈ w.members key, g.status.health ≠ .failed

/-- The collection is stored and not about to go, and a pass over it finds nothing to do. -/
structure AtRest (w : World) (key : Key) (c : Collection) : Prop where
  stored : (w.stores .collection).get? key = some c
  key_eq : Resource.key c = key
  awake : Resource.isTerminating c = false
  served : w.Served key c
  summed : c.status = (Pass.Summary.of (w.members key)).summed c

/-- How many passes over the collection are needed until it is settled. -/
inductive Nears (w : World) (key : Key) (c : Collection) : Nat → Prop where
  | settled (h : w.Stands key c (w.members key) 0) (hserved : w.Served key c)
    (hsummed : c.status = (Pass.Summary.of (w.members key)).summed c) : Nears w key c 0
  | filled (h : w.Stands key c (w.members key) 0) (hhealth : c.status.health ≠ .needsIntervention)
    (hlength : (w.members key).length = c.spec.replicas.toNat)
    (hfailed : ∀ g ∈ w.members key, g.status.health ≠ .failed) : Nears w key c 1
  | cleared
    (h : w.Stands key c (w.members key) (c.shortfall (w.members key) * c.portsPerMember))
    (hhealth : c.status.health ≠ .needsIntervention)
    (hfailed : ∀ g ∈ w.members key, g.status.health ≠ .failed) : Nears w key c 2
  | stored
    (h : w.Stands key c (w.members key) (c.shortfall (w.members key) * c.portsPerMember)) :
    Nears w key c 3

end World

/-! ## One pass -/

/-- The collection `c'` is `c` with its status summed up, which is written unless the status is
so already. Nothing else has happened between two worlds. -/
structure World.Refreshed (w : World) (key : Key) (c : Collection) (n : Nat) (c' : Collection)
    (v : World) : Prop where
  spec : c'.spec = c.spec
  status : c'.status = (Pass.Summary.of (w.members key)).summed c
  stands : v.Stands key c' (w.members key) n
  members : v.members key = w.members key
  left : c.status = (Pass.Summary.of (w.members key)).summed c → v = w

namespace Pass

variable {w : World} {key : Key} {c : Collection} {n : Nat} (context : PassContext)

/-- A pass sums up the status and goes on with the failed members, with nothing, or with the
scale. -/
theorem succeeds_collection {post : Unit → World → Prop} (h : w.Stands key c (w.members key) n)
    (hfailures : ∀ c' v, w.Refreshed key c n c' v →
      ((w.members key).filter fun g => g.status.health = .failed) ≠ [] →
      Succeeds key (handleFailures context c'
        (((w.members key).filter fun g => g.status.health = .failed).map Resource.key)) post v)
    (hneeds : ∀ c' v, w.Refreshed key c n c' v → c'.status.health = .needsIntervention → post () v)
    (hscale : ∀ c' v, w.Refreshed key c n c' v →
      (∀ g ∈ w.members key, g.status.health ≠ .failed) →
      c'.status.health ≠ .needsIntervention →
      Succeeds key (scale context c' (w.members key)) post v) :
    Succeeds key (collection context key) post w := by
  have hkey : Resource.key c = key := h.key_eq
  have hcached : Succeeds key (cached .collection key) (fun found v => found = some c ∧ v = w) w :=
    succeeds_cached ⟨h.stored, rfl⟩
  refine hcached.bind ?_
  rintro found v ⟨rfl, rfl⟩
  simp only [h.awake]
  have hlist : Succeeds key (access (.list .gameServer c.metadata.ns c.memberSelector))
      (fun found u => found = v.members key ∧ u = v) v :=
    succeeds_list ⟨by rw [← hkey]; rfl, rfl⟩
  refine hlist.bind fun members u hu => ?_
  obtain ⟨rfl, rfl⟩ := hu
  refine (succeeds_rewrite context h (Summary.of (u.members key)).change
    fun b hb => ?_).bind fun r v hv => ?_
  · have hget := Summary.getD_change (Summary.of (u.members key)) c
    rw [hb, Option.getD_some] at hget
    rw [hget]
  obtain ⟨c', rfl, hspec, hstatus, hstands, hmembers, hleft⟩ := hv
  rw [Summary.getD_change] at hspec hstatus
  have hrefreshed : u.Refreshed key c n c' v :=
    ⟨hspec, hstatus, hstands, hmembers, fun heq => hleft (Summary.change_eq_none_iff.2 heq)⟩
  simp only
  split
  · next hfailed =>
    exact hfailures c' v hrefreshed (by simpa using hfailed)
  · next hnone =>
    have hfailed : ∀ g ∈ u.members key, g.status.health ≠ .failed := by simpa using hnone
    split
    · next hhealth => exact hneeds c' v hrefreshed hhealth
    · next hhealth => exact hscale c' v hrefreshed hfailed hhealth

end Pass

namespace World.Refreshed

variable {w v : World} {key : Key} {c c' : Collection} {n : Nat}

theorem thresholdReached_eq (h : w.Refreshed key c n c' v) :
    c'.thresholdReached = c.thresholdReached := by
  rw [Collection.thresholdReached, Collection.thresholdReached, h.spec, h.status]
  rfl

theorem portsPerMember_eq (h : w.Refreshed key c n c' v) :
    c'.portsPerMember = c.portsPerMember := by
  rw [Collection.portsPerMember, Collection.portsPerMember, h.spec]

theorem summed (h : w.Refreshed key c n c' v) :
    c'.status = (Pass.Summary.of (w.members key)).summed c' :=
  Pass.Summary.summed_eq (Pass.Summary.health_of_ne _) h.spec h.status

/-- A collection that still needs intervention is settled. -/
theorem settled_of_needs (h : w.Refreshed key c n c' v)
    (hneeds : c'.status.health = .needsIntervention) : v.Nears key c' 0 := by
  have hfor : (Pass.Summary.of (w.members key)).healthFor c = .needsIntervention := by
    rw [← hneeds, h.status]
    rfl
  have hreached := Pass.Summary.thresholdReached_of_healthFor (Pass.Summary.health_of_ne _) hfor
  refine .settled ?_ (Or.inl ⟨hneeds, h.thresholdReached_eq.trans hreached⟩) ?_
  · rw [h.members]
    exact h.stands.fewer (Nat.zero_le _)
  · rw [h.members]
    exact h.summed

/-- Failed members beyond the limit settle a collection. -/
theorem settled_of_escalated (h : w.Refreshed key c n c' v) (hreached : c'.thresholdReached)
    {u : World} {c'' : Collection} (hspec : c''.spec = c'.spec)
    (hstatus : c''.status = { c'.status with health := .needsIntervention })
    (hstands : u.Stands key c'' (w.members key) n) (hmembers : u.members key = v.members key) :
    u.Nears key c'' 0 := by
  have hreached'' : c''.thresholdReached := by
    rw [Collection.thresholdReached, hspec, hstatus]
    exact hreached
  have hneeds : c''.status.health = .needsIntervention := by rw [hstatus]
  refine .settled ?_ (Or.inl ⟨hneeds, hreached''⟩) ?_
  · rw [hmembers, h.members]
    exact hstands.fewer (Nat.zero_le _)
  · have hfor (s : Pass.Summary) : s.healthFor c'' = .needsIntervention :=
      if_pos ⟨hneeds, hreached''⟩
    rw [hmembers, h.members, Pass.Summary.summed, hfor, hstatus, h.status]
    rfl

/-- When the failed members have gone the others are left, and no fewer are missing. -/
theorem cleared_of_handled
    (h : w.Refreshed key c (c.shortfall (w.members key) * c.portsPerMember) c' v)
    (hbelow : c'.thresholdReached = false) {u : World} {c'' : Collection}
    (hspec : c''.spec = c'.spec) (hhealth : c''.status.health = c'.status.health)
    (hstands : u.Stands key c'' ((w.members key).filter fun g => g.status.health ≠ .failed)
      (c.shortfall (w.members key) * c.portsPerMember)) : u.Nears key c'' 2 := by
  have hperm := Multiset.coe_eq_coe.1 hstands.members
  have hfailed : ∀ g ∈ u.members key, g.status.health ≠ .failed := fun g hg => by
    simpa using (List.mem_filter.1 (hperm.mem_iff.1 hg)).2
  have hshortfall : c''.shortfall (u.members key) = c.shortfall (w.members key) := by
    rw [Collection.shortfall, Collection.shortfall, hspec, h.spec, hperm.countP_eq,
      List.countP_filter]
    simp
  have hports : c''.portsPerMember = c.portsPerMember := by
    rw [← h.portsPerMember_eq, Collection.portsPerMember, Collection.portsPerMember, hspec]
  refine .cleared ?_ (fun hneeds => ?_) hfailed
  · rw [hshortfall, hports]
    exact { hstands with members := rfl }
  · have hfor : (Pass.Summary.of (w.members key)).healthFor c = .needsIntervention := by
      rw [← hneeds, hhealth, h.status]
      rfl
    have hreached :=
      Pass.Summary.thresholdReached_of_healthFor (Pass.Summary.health_of_ne _) hfor
    rw [← h.thresholdReached_eq, hbelow] at hreached
    cases hreached

/-- When there were as many members before, that is all. -/
theorem settled_of_unscaled (h : w.Refreshed key c n c' v)
    (hfailed : ∀ g ∈ w.members key, g.status.health ≠ .failed)
    (hhealth : c'.status.health ≠ .needsIntervention)
    (hlength : (w.members key).length = c.spec.replicas.toNat) : v.Nears key c' 0 := by
  refine .settled ?_ (Or.inr ⟨hhealth, ?_, ?_⟩) ?_
  · rw [h.members]
    exact h.stands.fewer (Nat.zero_le _)
  · rw [h.members, hlength, h.spec]
  · rwa [h.members]
  · rw [h.members]
    exact h.summed

end World.Refreshed

namespace World.Nears

variable {w : World} {key : Key} {c : Collection} {left : Nat}

/-- After the scale there are as many members as asked for. -/
theorem of_scaled {members : List GameServer} {ms : Multiset GameServer}
    (hfailed : ∀ g ∈ members, g.status.health ≠ .failed)
    (hhealth : c.status.health ≠ .needsIntervention) (hcard : ms.card = c.spec.replicas.toNat)
    (hms : ∀ g ∈ ms, g ∈ members ∨ g.status = .initial) (hstands : w.Stands key c ms 0) :
    w.Nears key c 1 := by
  refine .filled { hstands with members := rfl } hhealth ?_ fun g hg => ?_
  · rw [← hcard, ← hstands.members, Multiset.coe_card]
  · rw [← Multiset.mem_coe, hstands.members] at hg
    rcases hms g hg with hmem | hnew
    · exact hfailed g hmem
    · rw [hnew]
      decide

theorem stands (h : w.Nears key c left) : ∃ n, w.Stands key c (w.members key) n := by
  cases h with
  | settled h => exact ⟨_, h⟩
  | filled h => exact ⟨_, h⟩
  | cleared h => exact ⟨_, h⟩
  | stored h => exact ⟨_, h⟩

end World.Nears

namespace Pass

variable {w : World} {key : Key} {c : Collection} {left : Nat} (context : PassContext)

theorem handleFailures_of_reached (h : c.thresholdReached) (failed : List Key) :
    handleFailures context c failed = escalate context c :=
  if_pos h

/-- A pass that finds nothing to do leaves the world as it is. -/
theorem succeeds_atRest (h : w.AtRest key c) :
    Succeeds key (collection context key) (fun _ v => v = w) w := by
  have hleft {change : Collection → Option Collection} (hnone : change c = none) :
      Succeeds key (access (.modify context.retry .collection key change))
        (fun found v => found = some c ∧ v = w) w := by
    refine succeeds_modify h.stored (fun _ => ⟨rfl, rfl⟩) fun b hb => ?_
    rw [hnone] at hb
    cases hb
  have hcached : Succeeds key (cached .collection key) (fun found v => found = some c ∧ v = w) w :=
    succeeds_cached ⟨h.stored, rfl⟩
  refine hcached.bind ?_
  rintro found v ⟨rfl, rfl⟩
  simp only [h.awake]
  have hlist : Succeeds key (access (.list .gameServer c.metadata.ns c.memberSelector))
      (fun found u => found = v.members key ∧ u = v) v :=
    succeeds_list ⟨by rw [← h.key_eq]; rfl, rfl⟩
  refine hlist.bind ?_
  rintro members u ⟨rfl, rfl⟩
  refine (hleft (Summary.change_eq_none_iff.2 h.summed)).bind ?_
  rintro found v ⟨rfl, rfl⟩
  simp only
  rcases h.served with ⟨hneeds, hreached⟩ | ⟨hhealth, hlength, hfailed⟩
  · split
    · rw [handleFailures_of_reached context hreached, escalate, h.key_eq]
      refine (hleft (if_pos hneeds)).bind ?_
      rintro found u ⟨-, rfl⟩
      simp only [hneeds, ne_eq, not_true_eq_false, false_and, if_false]
      exact succeeds_pure rfl
    · exact succeeds_pure rfl
  · have hnone : ((v.members key).filter fun g => g.status.health = .failed) = [] :=
      List.filter_eq_nil_iff.2 fun g hg => by simpa using hfailed g hg
    simp only [hnone, List.isEmpty_nil, Bool.not_true, Bool.false_eq_true, if_false, hhealth]
    simp only [scale, hlength, Nat.lt_irrefl, if_false]
    exact succeeds_record _ _ _ _ _ rfl

/-- A pass over a settled collection leaves the world as it is. -/
theorem succeeds_settled (h : w.Nears key c 0) :
    Succeeds key (collection context key) (fun _ v => v = w) w := by
  obtain ⟨h, hserved, hsummed⟩ := h
  exact succeeds_atRest context ⟨h.stored, h.key_eq, h.awake, hserved, hsummed⟩

/-- When no member has failed, the scale fills the collection. -/
theorem succeeds_scale_nears {c' : Collection} {v : World}
    (hv : w.Refreshed key c (c.shortfall (w.members key) * c.portsPerMember) c' v)
    (hfailed : ∀ g ∈ w.members key, g.status.health ≠ .failed)
    (hhealth : c'.status.health ≠ .needsIntervention) :
    Succeeds key (scale context c' (w.members key)) (fun _ u => u.Nears key c' 1) v := by
  have hshortfall : c.shortfall (w.members key) =
      c'.spec.replicas.toNat - (w.members key).length := by
    have hall : (w.members key).countP (fun g => g.status.health ≠ .failed) =
        (w.members key).length := List.countP_eq_length.2 (by simpa using hfailed)
    rw [Collection.shortfall, hall, hv.spec]
  have hstands := hv.stands
  rw [hshortfall, ← hv.portsPerMember_eq] at hstands
  refine (succeeds_scale context hstands).mono fun _ u hu => ?_
  obtain ⟨⟨ms, hcard, hms, hu⟩, -⟩ := hu
  exact .of_scaled hfailed hhealth hcard hms hu

/-- A pass brings a collection nearer to being settled. -/
theorem succeeds_nears (h : w.Nears key c left) :
    Succeeds key (collection context key) (fun _ v =>
      ∃ c' fewer, c'.spec = c.spec ∧ fewer ≤ left - 1 ∧ v.Nears key c' fewer) w := by
  cases h with
  | settled h hserved hsummed =>
    refine (succeeds_settled context (.settled h hserved hsummed)).mono fun _ v hv => ?_
    subst hv
    exact ⟨c, 0, rfl, le_rfl, .settled h hserved hsummed⟩
  | filled h hhealth hlength hfailed =>
    refine succeeds_collection context h (fun c' v hv hsome => ?_)
      (fun c' v hv hneeds => ⟨c', 0, hv.spec, le_rfl, hv.settled_of_needs hneeds⟩)
      fun c' v hv _ hhealth' => ?_
    · refine absurd (List.filter_eq_nil_iff.2 fun g hg => ?_) hsome
      simpa using hfailed g hg
    · have hlength' : (w.members key).length = c'.spec.replicas.toNat := by rw [hlength, hv.spec]
      refine (succeeds_scale context (hv.stands.fewer ?_)).mono fun _ u hu => ?_
      · rw [hlength', Nat.sub_self, Nat.zero_mul]
      · obtain rfl := hu.2 hlength'
        exact ⟨c', 0, hv.spec, le_rfl, hv.settled_of_unscaled hfailed hhealth' hlength⟩
  | cleared h hhealth hfailed =>
    refine succeeds_collection context h (fun c' v hv hsome => ?_)
      (fun c' v hv hneeds => ⟨c', 0, hv.spec, Nat.zero_le _, hv.settled_of_needs hneeds⟩)
      fun c' v hv _ hhealth' => ?_
    · refine absurd (List.filter_eq_nil_iff.2 fun g hg => ?_) hsome
      simpa using hfailed g hg
    · refine (succeeds_scale_nears context hv hfailed hhealth').mono fun _ u hu => ?_
      exact ⟨c', 1, hv.spec, le_rfl, hu⟩
  | stored h =>
    refine succeeds_collection context h (fun c' v hv hsome => ?_)
      (fun c' v hv hneeds => ⟨c', 0, hv.spec, Nat.zero_le _, hv.settled_of_needs hneeds⟩)
      fun c' v hv hfailed hhealth' => ?_
    · cases hreached : c'.thresholdReached with
      | true =>
        rw [handleFailures_of_reached context hreached]
        refine (succeeds_escalate context hv.stands).mono fun _ u hu => ?_
        obtain ⟨c'', hspec, hstatus, hstands, hmembers, -⟩ := hu
        exact ⟨c'', 0, hspec.trans hv.spec, Nat.zero_le _,
          hv.settled_of_escalated hreached hspec hstatus hstands hmembers⟩
      | false =>
        have hsplit : (w.members key : Multiset GameServer) =
            ((w.members key).filter fun g => g.status.health = .failed : List GameServer) +
              ((w.members key).filter fun g => g.status.health ≠ .failed : List GameServer) := by
          rw [← Multiset.filter_coe, ← Multiset.filter_coe, Multiset.filter_add_not]
        have hstands := hv.stands
        rw [hsplit] at hstands
        refine (succeeds_handleFailures context hstands hsome hreached).mono fun _ u hu => ?_
        obtain ⟨c'', hspec, hhealth, hu⟩ := hu
        exact ⟨c'', 2, hspec.trans hv.spec, le_rfl,
          hv.cleared_of_handled hreached hspec hhealth hu⟩
    · refine (succeeds_scale_nears context hv hfailed hhealth').mono fun _ u hu => ?_
      exact ⟨c', 1, hv.spec, Nat.le_succ _, hu⟩

/-! ## Passes in succession -/

/-- So many passes over a collection, one after the other. -/
def passes (key : Key) : Nat → Pass Unit
  | 0 => return ()
  | n + 1 => do
    collection context key
    passes key n

theorem succeeds_passes {n : Nat} (h : w.Nears key c left) (hleft : left ≤ n) :
    Succeeds key (passes context key n) (fun _ v =>
      ∃ c', c'.spec = c.spec ∧ v.Nears key c' 0) w := by
  induction n generalizing w c left with
  | zero =>
    obtain rfl : left = 0 := Nat.le_zero.1 hleft
    exact ⟨c, rfl, h⟩
  | succ n ih =>
    refine (succeeds_nears context h).bind fun _ v hv => ?_
    obtain ⟨c', fewer, hspec, hfewer, hv⟩ := hv
    refine (ih hv (by omega)).mono fun _ u hu => ?_
    obtain ⟨c'', hspec', hu⟩ := hu
    exact ⟨c'', hspec'.trans hspec, hu⟩

theorem succeeds_passes_settled (n : Nat) (h : w.Nears key c 0) :
    Succeeds key (passes context key n) (fun _ v => v = w) w := by
  induction n with
  | zero => exact succeeds_pure rfl
  | succ n ih =>
    refine (succeeds_settled context h).bind fun _ v hv => ?_
    subst hv
    exact ih

end Pass

/-- The collection is stored, and needs intervention, its failures having reached the limit, or
has the members that it asks for, of which none has failed. Its status is what its members make
of it, apart from the need for intervention. -/
structure World.Converged (w : World) (key : Key) (c : Collection) : Prop where
  stored : (w.stores .collection).get? key = some c
  served : c.status.health = .needsIntervention ∧ c.spec.maxFailures ≤ c.status.timesFailed ∨
    (w.members key).length = c.spec.replicas.toNat ∧
      ∀ g ∈ w.members key, g.status.health ≠ .failed
  health : c.status.health = .needsIntervention ∨
    c.status.health = Collection.healthOf (w.members key)
  podState : c.status.podState = some (Collection.podStateOf (w.members key))
  available : c.status.available = Collection.availableOf (w.members key)

theorem World.Nears.converged {w : World} {key : Key} {c : Collection} (h : w.Nears key c 0) :
    w.Converged key c := by
  obtain ⟨h, hserved, hsummed⟩ := h
  refine ⟨h.stored, hserved.imp (fun hneeds => ⟨hneeds.1, ?_⟩) (fun hserved => hserved.2),
    ?_, ?_, ?_⟩
  · simpa [Collection.thresholdReached] using hneeds.2
  · have hhealth : c.status.health = (Pass.Summary.of (w.members key)).healthFor c :=
      congrArg (·.health) hsummed
    unfold Pass.Summary.healthFor at hhealth
    split at hhealth
    · exact Or.inl hhealth
    · exact Or.inr hhealth
  · exact congrArg (·.podState) hsummed
  · exact congrArg (·.available) hsummed

/-- Three passes over a collection that run alone succeed, and then it has converged, whatever
was stored of it and of its members. Further passes change nothing : no store is written to, and
no port is allocated. -/
theorem Pass.converged_of_three_passes (context : PassContext) {w : World} {key : Key}
    {c : Collection} (hservers : (w.stores .gameServer).Sound)
    (hcollections : (w.stores .collection).Sound)
    (hstored : (w.stores .collection).get? key = some c)
    (hawake : Resource.isTerminating c = false) (hserving : w.registry.Serving)
    (hports : c.shortfall (w.members key) * c.portsPerMember ≤ w.registry.pool.free.card) :
    Succeeds key (passes context key 3) (fun _ v => ∃ c', c'.spec = c.spec ∧ v.Converged key c' ∧
      ∀ (later : PassContext) (n : Nat),
        Succeeds key (passes later key n) (fun _ u => u = v) v) w := by
  have hstands : w.Stands key c (w.members key) (c.shortfall (w.members key) * c.portsPerMember) :=
    ⟨hservers, hcollections, hstored, hawake, rfl, hserving, hports⟩
  refine (succeeds_passes context (.stored hstands) le_rfl).mono fun _ v hv => ?_
  obtain ⟨c', hspec, hv⟩ := hv
  exact ⟨c', hspec, hv.converged, fun later n => succeeds_passes_settled later n hv⟩

namespace World

/-- A collection that asks for two members, as it is stored. -/
def arena : Collection :=
  Store.newborn .empty Sample.birth (Sample.collection "arena" 2 .remove 5 none)

/-- A member of it that has failed, as it is stored. -/
def wreck : GameServer :=
  let g := arena.newMember "arena-old"
  Store.newborn .empty Sample.birth { g with status := { g.status with health := .failed } }

/-- A world in which the failed member is the only one. -/
def troubled : World where
  stores
    | .collection => Store.commit .empty (.added arena)
    | .gameServer => Store.commit .empty (.added wreck)
    | .pod => .empty
    | .node => .empty
  logs _ := []
  registry := Sample.registry []
  departed := []

theorem sound_added {α : Type} [Resource α] (birth : Birth) (a : α) :
    (Store.commit .empty (.added (Store.newborn .empty birth a))).Sound :=
  Store.sound_empty.commit (Store.admits_of_create (Store.create_eq rfl))

/-- A failed member is replaced, and the one that is missing is made. -/
theorem converged_troubled :
    (troubled.members Sample.arenaKey).map (·.status.health) = [.failed] ∧
      Succeeds Sample.arenaKey (Pass.passes default Sample.arenaKey 3) (fun _ v => ∃ c',
        c'.spec = arena.spec ∧ v.Converged Sample.arenaKey c' ∧
        ∀ (later : PassContext) (n : Nat),
          Succeeds Sample.arenaKey (Pass.passes later Sample.arenaKey n) (fun _ u => u = v) v)
        troubled := by
  refine ⟨by decide +kernel, Pass.converged_of_three_passes default (sound_added _ _)
    (sound_added _ _) rfl rfl (Registry.serving_ofPool _) ?_⟩
  decide +kernel

end World

end GameFleet
