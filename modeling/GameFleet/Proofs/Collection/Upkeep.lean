import GameFleet.Proofs.Collection.Membership
import GameFleet.Proofs.Port.Claims

/-!
# What a pass does to members

`World.Stands` says what there is to know of a collection for a pass that runs alone : how it
is stored, who its members are, and that the registry has enough free ports. There is a
lemma for each part of a pass, which says how the collection stands when the part is done.
Failed members are dealt with one after the other (`Pass.succeeds_handleAll`), and scaling
ends with as many members as are asked for (`Pass.succeeds_scale`).
-/

namespace GameFleet

/-- The host ports that a new member is given. -/
def Collection.portsPerMember (c : Collection) : Nat :=
  c.spec.template.ports.countP fun p => c.spec.portsToExpose.contains p.containerPort

/-- The collection `c` is stored, and not about to go. It has the members `ms`, and the
registry has `n` free ports or more. -/
structure World.Stands (w : World) (key : Key) (c : Collection) (ms : Multiset GameServer)
    (n : Nat) : Prop where
  servers : (w.stores .gameServer).Sound
  collections : (w.stores .collection).Sound
  stored : (w.stores .collection).get? key = some c
  awake : Resource.isTerminating c = false
  members : (w.members key : Multiset GameServer) = ms
  serving : w.registry.Serving
  free : n ≤ w.registry.pool.free.card

namespace World.Stands

variable {w : World} {key : Key} {c : Collection} {ms : Multiset GameServer} {n : Nat}
  {g : GameServer}

theorem key_eq (h : w.Stands key c ms n) : Resource.key c = key := h.collections.key_eq h.stored

/-- A collection that is written again stands as before. -/
theorem rewrite (h : w.Stands key c ms n) {b : Collection} (hb : b.metadata = c.metadata) :
    World.Stands (w.changed .collection (.updated c ((w.stores .collection).successor c b))) key
      ((w.stores .collection).successor c b) ms n := by
  have hkey : Resource.key b = key := h.key_eq ▸ congrArg Meta.key hb
  have hget : (w.stores .collection).get? (Resource.key b) = some c := by rw [hkey, h.stored]
  have hadmits : (w.stores .collection).Admits
      (.updated c ((w.stores .collection).successor c b)) :=
    Store.admits_of_update (Store.update_eq hget (congrArg Meta.version hb))
  have hservers : (w.changed .collection
      (.updated c ((w.stores .collection).successor c b))).stores .gameServer =
        w.stores .gameServer :=
    w.stores_changed_of_ne (by decide) _
  refine ⟨by rw [hservers]; exact h.servers, ?_, ?_, ?_, ?_, h.serving, h.free⟩
  · rw [w.stores_changed]
    exact h.collections.commit hadmits
  · rw [w.stores_changed, Store.get?_commit, Change.object, Store.key_successor, if_pos hkey]
    rfl
  · exact (congrArg (·.deletion.isSome) hb).trans h.awake
  · rw [World.members_of_stores_eq hservers, h.members]

/-- So does one beside which an instance changes, apart from its members. -/
theorem restock (h : w.Stands key c ms n) {change : Change GameServer}
    (hadmits : (w.stores .gameServer).Admits change) {ms' : Multiset GameServer}
    (hmembers : ((w.changed .gameServer change).members key : Multiset GameServer) = ms') :
    World.Stands (w.changed .gameServer change) key c ms' n := by
  have hcollections : (w.changed .gameServer change).stores .collection = w.stores .collection :=
    w.stores_changed_of_ne (by decide) _
  refine ⟨?_, by rw [hcollections]; exact h.collections, by rw [hcollections]; exact h.stored,
    h.awake, hmembers, h.serving, h.free⟩
  rw [w.stores_changed]
  exact h.servers.commit hadmits

/-- A member of the collection is stored under its key. -/
theorem stored_member (h : w.Stands key c (g ::ₘ ms) n) :
    (w.stores .gameServer).get? (Resource.key g) = some g ∧ g.IsMember key := by
  refine (World.mem_members h.servers).1 (Multiset.mem_coe.1 ?_)
  rw [h.members]
  exact Multiset.mem_cons_self g ms

/-- A member goes. -/
theorem gone (h : w.Stands key c (g ::ₘ ms) n) {change : Change GameServer}
    (hadmits : (w.stores .gameServer).Admits change) (hbefore : change.before? = some g)
    (hafter : ∀ g', change.after? = some g' → ¬g'.IsMember key) :
    World.Stands (w.changed .gameServer change) key c ms n := by
  refine h.restock hadmits ?_
  have hmembers := World.members_of_gone hadmits hbefore h.stored_member.2 hafter
  rw [h.members, Multiset.cons_inj_right] at hmembers
  exact hmembers.symm

/-- A member comes. -/
theorem come (h : w.Stands key c ms n) {change : Change GameServer}
    (hadmits : (w.stores .gameServer).Admits change) (hbefore : change.before? = none)
    (hafter : change.after? = some g) (hg : g.IsMember key) :
    World.Stands (w.changed .gameServer change) key c (g ::ₘ ms) n :=
  h.restock hadmits (by rw [World.members_of_new hadmits hbefore hafter hg, h.members])

/-- Fewer free ports are free as well. -/
theorem fewer (h : w.Stands key c ms n) {m : Nat} (hm : m ≤ n) : w.Stands key c ms m :=
  { h with free := hm.trans h.free }

end World.Stands

namespace Pass

variable {w : World} {key : Key} {c : Collection} {ms : Multiset GameServer} {n : Nat}
  {g : GameServer} (context : PassContext)

/-! ## The collection -/

/-- The collection after a change of what is stored of it. What is stored then has the spec
and the status of the change, and members and ports are as they were. -/
theorem succeeds_rewrite (h : w.Stands key c ms n) (change : Collection → Option Collection)
    (hchange : ∀ b, change c = some b → b.metadata = c.metadata) :
    Succeeds key (access (.modify context.retry .collection key change)) (fun r v =>
      ∃ c', r = some c' ∧ c'.spec = ((change c).getD c).spec ∧
        c'.status = ((change c).getD c).status ∧ v.Stands key c' ms n ∧
        v.members key = w.members key ∧ (change c = none → v = w)) w := by
  refine succeeds_modify h.stored (fun hnone => ?_) fun b hb => ?_
  · exact ⟨c, rfl, by rw [hnone]; rfl, by rw [hnone]; rfl, h, rfl, fun _ => rfl⟩
  · have hmeta := hchange b hb
    refine ⟨h.key_eq ▸ congrArg Meta.key hmeta, congrArg Meta.version hmeta, _, rfl, ?_, ?_,
      h.rewrite hmeta, ?_, fun hnone => ?_⟩
    · rw [hb]
      rfl
    · rw [hb]
      rfl
    · exact World.members_of_stores_eq (w.stores_changed_of_ne (by decide) _)
    · rw [hb] at hnone
      cases hnone

/-- A collection that failed too often needs intervention. -/
theorem succeeds_escalate (h : w.Stands key c ms n) :
    Succeeds key (escalate context c) (fun _ v =>
      ∃ c', c'.spec = c.spec ∧ c'.status = { c.status with health := .needsIntervention } ∧
        v.Stands key c' ms n ∧ v.members key = w.members key ∧
        (c.status.health = .needsIntervention → v = w)) w := by
  unfold escalate
  rw [h.key_eq]
  refine (succeeds_rewrite context h intervene fun b hb => ?_).bind ?_
  · obtain ⟨-, rfl⟩ := eq_of_intervene hb
    rfl
  · rintro r v ⟨c', rfl, hspec, hstatus, hv, hmembers, hleft⟩
    have hpost : ∃ c', c'.spec = c.spec ∧
        c'.status = { c.status with health := .needsIntervention } ∧
        v.Stands key c' ms n ∧ v.members key = w.members key ∧
        (c.status.health = .needsIntervention → v = w) := by
      unfold intervene at hspec hstatus hleft
      split at hstatus
      · next hhealth =>
        simp only [if_pos hhealth] at hspec hleft
        refine ⟨c', hspec, ?_, hv, hmembers, fun _ => hleft trivial⟩
        rw [hstatus, ← hhealth]
        rfl
      · next hhealth =>
        simp only [if_neg hhealth] at hspec
        exact ⟨c', hspec, hstatus, hv, hmembers, fun heq => absurd heq hhealth⟩
    simp only
    split
    · exact succeeds_record _ _ _ _ _ hpost
    · exact hpost

/-! ## Failed members -/

theorem detach_eq (hg : g.IsMember key) : detach key.name g = some (g.detached key.name) :=
  if_pos hg.2

/-- A member that loses the label is no member afterwards. -/
theorem succeeds_letGo (h : w.Stands key c (g ::ₘ ms) n) {change : GameServer → Option GameServer}
    {g' : GameServer} (hchange : change g = some g') (hkey : Resource.key g' = Resource.key g)
    (hversion : Resource.version g' = Resource.version g) (hnone : g'.collection? = none) :
    Succeeds key (access (.modify context.retry .gameServer (Resource.key g) change))
      (fun r v => r.isSome ∧ v.Stands key c ms n) w := by
  obtain ⟨hget, hmember⟩ := h.stored_member
  refine succeeds_modify hget (fun hleft => ?_) fun b hb => ?_
  · rw [hchange] at hleft
    cases hleft
  · rw [hchange] at hb
    cases hb
    refine ⟨hkey, hversion, rfl, h.gone ?_ rfl fun b hb => ?_⟩
    · exact Store.admits_of_update (Store.update_eq (by rwa [hkey]) hversion)
    · cases hb
      rintro ⟨-, hlabel⟩
      rw [GameServer.collection?_successor, hnone] at hlabel
      cases hlabel

/-- A failed member is no member afterwards. -/
theorem succeeds_handleFailure (h : w.Stands key c (g ::ₘ ms) n) :
    Succeeds key (handleFailure context c (Resource.key g))
      (fun done v => done = true ∧ v.Stands key c ms n) w := by
  obtain ⟨hget, hmember⟩ := h.stored_member
  unfold handleFailure
  cases c.spec.failBehavior with
  | remove =>
    have hname : c.metadata.name = key.name := congrArg Key.name h.key_eq
    rw [hname]
    refine (succeeds_letGo context h (detach_eq hmember) rfl rfl
      (g.collection?_detached _)).bind fun r v hv => ?_
    exact hv
  | delete =>
    have hdeleted : Succeeds key (ask (.delete .gameServer (Resource.key g)))
        (fun answer v => answer = Except.ok () ∧ v.Stands key c ms n) w := by
      refine succeeds_ask ⟨_, _, .delete⟩ fun answer v hv => ?_
      obtain ⟨hanswer, rfl⟩ := hv.delete_eq h.servers hget
      refine ⟨hanswer, h.gone ?_ rfl fun g' hg' => by cases hg'⟩
      exact Store.admits_of_delete h.servers (Store.delete_eq h.servers hget)
    refine hdeleted.bind fun answer v hv => ?_
    obtain ⟨rfl, hstands⟩ := hv
    exact ⟨rfl, hstands⟩

theorem succeeds_handleAll {gs : List GameServer} (h : w.Stands key c (gs + ms) n)
    (handled : Nat) :
    Succeeds key (handleAll context c (gs.map Resource.key) handled)
      (fun total v => total = handled + gs.length ∧ v.Stands key c ms n) w := by
  induction gs generalizing w handled with
  | nil => exact ⟨rfl, by simpa using h⟩
  | cons g gs ih =>
    rw [← Multiset.cons_coe, Multiset.cons_add] at h
    refine (succeeds_handleFailure context h).bind fun done v hv => ?_
    obtain ⟨rfl, hstands⟩ := hv
    refine (ih hstands (handled + 1)).mono fun total u hu => ⟨?_, hu.2⟩
    rw [hu.1, List.length_cons]
    omega

/-- Below the limit the failed members go, and are counted. -/
theorem succeeds_handleFailures {gs : List GameServer} (h : w.Stands key c (gs + ms) n)
    (hgs : gs ≠ []) (hbelow : c.thresholdReached = false) :
    Succeeds key (handleFailures context c (gs.map Resource.key)) (fun _ v =>
      ∃ c', c'.spec = c.spec ∧ c'.status.health = c.status.health ∧ v.Stands key c' ms n) w := by
  unfold handleFailures
  rw [hbelow]
  refine (succeeds_handleAll context h 0).bind fun handled v hv => ?_
  obtain ⟨rfl, hstands⟩ := hv
  have hpos : 0 + gs.length ≠ 0 := by
    rw [Nat.zero_add]
    exact fun hzero => hgs (List.length_eq_zero_iff.1 hzero)
  rw [if_neg hpos, hstands.key_eq]
  refine (succeeds_rewrite context hstands _ fun b hb => ?_).bind fun r u hu => ?_
  · cases hb
    rfl
  · obtain ⟨c', -, hspec, hstatus, hu, -⟩ := hu
    refine succeeds_record _ _ _ _ _ ⟨c', hspec, ?_, hu⟩
    rw [hstatus]
    rfl

/-! ## Scaling -/

/-- A member that is made has a name of its own, and the ports that it is to have. -/
theorem succeeds_createMember (h : w.Stands key c ms (n + c.portsPerMember)) :
    Succeeds key (createMember c) (fun _ v =>
      ∃ g : GameServer, g.status = .initial ∧ v.Stands key c (g ::ₘ ms) n) w := by
  have hkey := h.key_eq
  have hsuffix : Succeeds key (ask (.suffix Naming.suffixLength)) (fun s v => v = w ∧
      (w.stores .gameServer).get? ⟨key.ns, Naming.generated key.name s⟩ = none) w := by
    obtain ⟨s, hs⟩ := w.exists_unused key
    refine succeeds_ask ⟨s, w, .suffix s hs⟩ fun s v hv => ?_
    cases hv with
    | suffix _ hs => exact ⟨rfl, hs⟩
  refine hsuffix.bind fun suffix v hv => ?_
  obtain ⟨rfl, hunused⟩ := hv
  set g := c.newMember (Naming.generated c.metadata.name suffix) with hg
  have hnone : (v.stores .gameServer).get? (Resource.key g) = none := by
    rw [← hunused, ← hkey]
    rfl
  have hallocated : Succeeds key (allocate (Resource.key g) c.portsPerMember [])
      (fun _ u => u.Stands key c ms n ∧ u.stores = v.stores) v := by
    have hfree : c.portsPerMember ≤ v.registry.pool.free.card :=
      (Nat.le_add_left _ _).trans h.free
    refine succeeds_allocate h.serving hfree fun ports r _ hr hcard => ⟨?_, rfl⟩
    have hleft := h.free
    exact { h with serving := hr, free := by simp only; omega }
  refine hallocated.bind fun taken u hu => ?_
  obtain ⟨hstands, hstores⟩ := hu
  rw [← hstores] at hnone
  set filled := g.withFilled g.exposes taken with hfilled
  have hcreated : Succeeds key (ask (.create .gameServer filled)) (fun answer v =>
      ∃ a, answer = Except.ok a ∧ a.status = .initial ∧ v.Stands key c (a ::ₘ ms) n) u := by
    refine succeeds_ask ⟨_, _, .create ⟨⟨0⟩, ⟨0, 0⟩⟩⟩ fun answer v hv => ?_
    obtain ⟨birth, hanswer, rfl⟩ := hv.create_eq hnone
    refine ⟨_, hanswer, rfl, hstands.come ?_ rfl rfl ?_⟩
    · exact Store.admits_of_create (Store.create_eq hnone)
    · exact (GameServer.isMember_newborn _ _ _).2 (Collection.isMember_newMember hkey _)
  refine hcreated.bind fun answer v hv => ?_
  obtain ⟨a, rfl, hstatus, hstands⟩ := hv
  exact ⟨a, hstatus, hstands⟩

theorem succeeds_createMembers (count : Nat)
    (h : w.Stands key c ms (n + count * c.portsPerMember)) :
    Succeeds key (createMembers c count) (fun _ v =>
      ∃ made : Multiset GameServer, made.card = count ∧ (∀ g ∈ made, g.status = .initial) ∧
        v.Stands key c (made + ms) n) w := by
  induction count generalizing w ms with
  | zero =>
    refine ⟨0, rfl, fun g hg => by simp at hg, ?_⟩
    simpa using h
  | succ count ih =>
    rw [Nat.succ_mul, ← Nat.add_assoc] at h
    refine (succeeds_createMember h).bind fun _ v hv => ?_
    obtain ⟨g, hg, hstands⟩ := hv
    refine (ih hstands).mono fun _ u hu => ?_
    obtain ⟨made, hcard, hmade, hu⟩ := hu
    refine ⟨g ::ₘ made, by rw [Multiset.card_cons, hcard], fun a ha => ?_, ?_⟩
    · rcases Multiset.mem_cons.1 ha with rfl | ha
      · exact hg
      · exact hmade a ha
    · rwa [Multiset.cons_add, ← Multiset.add_cons]

theorem succeeds_detachAll {gs : List GameServer} (h : w.Stands key c (gs + ms) n) :
    Succeeds key (detachAll context c.metadata.name (gs.map Resource.key))
      (fun _ v => v.Stands key c ms n) w := by
  have hname : c.metadata.name = key.name := congrArg Key.name h.key_eq
  rw [hname]
  induction gs generalizing w with
  | nil => exact succeeds_pure (by simpa using h)
  | cons g gs ih =>
    rw [← Multiset.cons_coe, Multiset.cons_add] at h
    have hdetach : detachMarked key.name g = some
        { g.detached key.name with status := { g.status with markedForDeletion := true } } := by
      rw [detachMarked, detach_eq h.stored_member.2]
      rfl
    refine (succeeds_letGo context h hdetach rfl rfl (g.collection?_detached _)).bind ?_
    exact fun _ v hv => ih hv.2

theorem filterMap_getElem?_range {α : Type} (l : List α) :
    (List.range l.length).filterMap (l[·]?) = l := by
  induction l with
  | nil => rfl
  | cons a l ih =>
    rw [List.length_cons, List.range_succ_eq_map, List.filterMap_cons]
    simp [List.filterMap_map, ih]

/-- Different places of a list hold a part of it. -/
theorem exists_picked {α : Type} (l : List α) {places : List Nat} (hnodup : places.Nodup)
    (hlt : ∀ i ∈ places, i < l.length) :
    ∃ rest : Multiset α, (l : Multiset α) = (places.filterMap (l[·]?) : List α) + rest := by
  have hle : (places : Multiset Nat) ≤ List.range l.length :=
    (Multiset.le_iff_subset (Multiset.coe_nodup.2 hnodup)).2 fun i hi =>
      Multiset.mem_coe.2 (List.mem_range.2 (hlt i (Multiset.mem_coe.1 hi)))
  obtain ⟨others, hothers⟩ := Multiset.le_iff_exists_add.1 hle
  have hmap := congrArg (Multiset.filterMap (l[·]?)) hothers
  rw [Multiset.filterMap_add, Multiset.filterMap_coe, Multiset.filterMap_coe,
    filterMap_getElem?_range] at hmap
  exact ⟨_, hmap⟩

theorem length_picked {α : Type} (l : List α) {places : List Nat}
    (hlt : ∀ i ∈ places, i < l.length) : (places.filterMap (l[·]?)).length = places.length := by
  induction places with
  | nil => rfl
  | cons i places ih =>
    rw [List.filterMap_cons, List.getElem?_eq_getElem (hlt i List.mem_cons_self), List.length_cons,
      List.length_cons, ih fun j hj => hlt j (List.mem_cons_of_mem _ hj)]

/-- So many different places are picked, and nothing happens. -/
theorem succeeds_pick {total count : Nat} (hle : count ≤ total) :
    Succeeds key (ask (.pick total count)) (fun (picked : List Nat) v => v = w ∧
      picked.length = count ∧ picked.Nodup ∧ ∀ i ∈ picked, i < total) w := by
  refine succeeds_ask ⟨List.range count, w, .pick _ List.length_range List.nodup_range ?_⟩ ?_
  · exact fun i hi => (List.mem_range.1 hi).trans_le hle
  · intro picked v hv
    cases hv with
    | pick _ hlength hnodup hlt => exact ⟨rfl, hlength, hnodup, hlt⟩

/-- Scaling ends with as many members as are asked for. Those that are made have not failed,
and when there are as many already nothing happens. -/
theorem succeeds_scale {members : List GameServer}
    (h : w.Stands key c members ((c.spec.replicas.toNat - members.length) * c.portsPerMember)) :
    Succeeds key (scale context c members) (fun _ v =>
      (∃ ms : Multiset GameServer, ms.card = c.spec.replicas.toNat ∧
        (∀ g ∈ ms, g ∈ members ∨ g.status = .initial) ∧ v.Stands key c ms 0) ∧
      (members.length = c.spec.replicas.toNat → v = w)) w := by
  unfold scale
  extract_lets desired
  split
  · next hlt =>
    have hports : w.Stands key c members (0 + (desired - members.length) * c.portsPerMember) := by
      rwa [Nat.zero_add]
    refine (succeeds_createMembers _ hports).bind fun _ v hv => ?_
    obtain ⟨made, hcard, hmade, hstands⟩ := hv
    refine succeeds_record _ _ _ _ _ ⟨⟨made + members, ?_, fun g hg => ?_, hstands⟩, fun heq => ?_⟩
    · rw [Multiset.card_add, hcard, Multiset.coe_card]
      omega
    · rcases Multiset.mem_add.1 hg with hg | hg
      · exact Or.inr (hmade g hg)
      · exact Or.inl (Multiset.mem_coe.1 hg)
    · omega
  split
  · next hlt =>
    refine (succeeds_pick (Nat.sub_le members.length desired)).bind ?_
    rintro picked v ⟨rfl, hlength, hnodup, hbound⟩
    obtain ⟨rest, hrest⟩ := exists_picked members hnodup hbound
    have hkeys : picked.filterMap (fun i => (members[i]?).map Resource.key) =
        (picked.filterMap (members[·]?)).map Resource.key := by
      rw [List.map_filterMap]
    have hstands :
        v.Stands key c ((picked.filterMap (members[·]?) : List GameServer) + rest) 0 := by
      rw [← hrest]
      exact h.fewer (Nat.zero_le _)
    rw [hkeys]
    refine (succeeds_detachAll context hstands).bind fun _ u hu => ?_
    refine succeeds_record _ _ _ _ _ ⟨⟨rest, ?_, fun g hg => Or.inl ?_, hu⟩, fun heq => ?_⟩
    · have hcard := congrArg Multiset.card hrest
      rw [Multiset.card_add, Multiset.coe_card, Multiset.coe_card, length_picked _ hbound,
        hlength] at hcard
      omega
    · rw [← Multiset.mem_coe, hrest]
      exact Multiset.mem_add.2 (Or.inr hg)
    · omega
  · next hge hle =>
    have heq : members.length = desired := by omega
    refine succeeds_record _ _ _ _ _
      ⟨⟨members, heq, fun g hg => Or.inl (Multiset.mem_coe.1 hg), ?_⟩, fun _ => rfl⟩
    exact h.fewer (Nat.zero_le _)

end Pass

end GameFleet
