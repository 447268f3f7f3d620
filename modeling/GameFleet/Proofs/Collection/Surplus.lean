import GameFleet.Proofs.Collection.Bounds
import GameFleet.Proofs.Collection.Convergence

/-!
# The surplus of a collection

When a collection has more members than it asks for, a pass that runs alone lets the surplus
go, whichever members are picked (`Pass.sheds_surplus`). Those that go stay stored, out of the
collection and marked for deletion (`GameServer.Parts`). No other instance changes, be it a
member or not (`World.Sheds`).
-/

namespace GameFleet

/-- The instance has left the collection, of which a note is kept, and is marked for deletion.
Apart from the version it is otherwise as it was. -/
structure GameServer.Parts (g : GameServer) (collection : String) (g' : GameServer) : Prop where
  spec : g'.spec = g.spec
  status : g'.status = { g.status with markedForDeletion := true }
  /-- It has no owners any more. -/
  metadata : g'.metadata = { g.metadata with
    owners := []
    labels := g'.metadata.labels
    version := g'.metadata.version }
  out : g'.collection? = none
  noted : g'.formerCollection? = some collection
  labels : ∀ label, label ≠ Labels.collectionName → label ≠ Labels.formerCollectionName →
    g'.metadata.label? label = g.metadata.label? label

/-- The instance as a scale leaves it. -/
def GameServer.parted (g : GameServer) (collection : String) : GameServer :=
  { g.detached collection with status := { g.status with markedForDeletion := true } }

theorem GameServer.parts_successor (s : Store GameServer) (g : GameServer) (collection : String) :
    g.Parts collection (s.successor g (g.parted collection)) := by
  have hnoted : (s.successor g (g.parted collection)).formerCollection? = some collection :=
    (Table.find?_insert _ _ _ _).trans (if_pos rfl)
  refine ⟨rfl, rfl, rfl, g.collection?_detached collection, hnoted, fun label hout hnote => ?_⟩
  refine (Table.find?_insert _ _ _ _).trans ?_
  rw [if_neg (Ne.symm hnote), Table.find?_erase, if_neg (Ne.symm hout)]
  rfl

namespace World

/-- The members of a collection under these keys have parted from it. No other instance has
changed, and of everything else that is stored only the collection may have. -/
structure Sheds (w : World) (key : Key) (parting : List Key) (v : World) : Prop where
  parted : ∀ k ∈ parting, ∃ g g', (w.stores .gameServer).get? k = some g ∧ g.IsMember key ∧
    (v.stores .gameServer).get? k = some g' ∧ g.Parts key.name g'
  kept : ∀ k ∉ parting, (v.stores .gameServer).get? k = (w.stores .gameServer).get? k
  collections : ∀ k ≠ key, (v.stores .collection).get? k = (w.stores .collection).get? k
  others : ∀ kind, kind ≠ .gameServer → kind ≠ .collection → v.stores kind = w.stores kind
  registry : v.registry = w.registry

variable {w v u : World} {key k : Key} {parting more : List Key}

namespace Sheds

theorem refl (w : World) (key : Key) : w.Sheds key [] w :=
  ⟨fun k hk => by simp at hk, fun _ _ => rfl, fun _ _ => rfl, fun _ _ _ => rfl, rfl⟩

/-- Those that part later have not parted before. -/
theorem notMem (h : w.Sheds key parting v) {g : GameServer}
    (hget : (v.stores .gameServer).get? k = some g) (hg : g.IsMember key) : k ∉ parting := by
  intro hk
  obtain ⟨_, g', -, -, hget', hparts⟩ := h.parted k hk
  rw [hget] at hget'
  cases hget'
  rw [GameServer.IsMember, hparts.out] at hg
  cases hg.2

theorem trans (h : w.Sheds key parting v) (hmore : v.Sheds key more u) :
    w.Sheds key (parting ++ more) u := by
  refine ⟨fun k hk => ?_, fun k hk => ?_, fun k hk => ?_, fun kind hg hc => ?_, ?_⟩
  · by_cases hlater : k ∈ more
    · obtain ⟨g, g', hget, hmember, hget', hparts⟩ := hmore.parted k hlater
      rw [h.kept k (h.notMem hget hmember)] at hget
      exact ⟨g, g', hget, hmember, hget', hparts⟩
    · have hbefore : k ∈ parting := (List.mem_append.1 hk).resolve_right hlater
      obtain ⟨g, g', hget, hmember, hget', hparts⟩ := h.parted k hbefore
      exact ⟨g, g', hget, hmember, (hmore.kept k hlater).trans hget', hparts⟩
  · rw [List.mem_append, not_or] at hk
    exact (hmore.kept k hk.2).trans (h.kept k hk.1)
  · exact (hmore.collections k hk).trans (h.collections k hk)
  · exact (hmore.others kind hg hc).trans (h.others kind hg hc)
  · exact hmore.registry.trans h.registry

/-- The same keys are in use. -/
theorem isSome_get? (h : w.Sheds key parting v) (k : Key) :
    ((v.stores .gameServer).get? k).isSome = ((w.stores .gameServer).get? k).isSome := by
  by_cases hk : k ∈ parting
  · obtain ⟨g, g', hget, -, hget', -⟩ := h.parted k hk
    rw [hget, hget']
    rfl
  · rw [h.kept k hk]

end Sheds

end World

/-! ## Keys of members -/

theorem Store.Sound.map_key_values {α : Type} [Resource α] {s : Store α} (h : s.Sound) :
    s.objects.values.map Resource.key = s.objects.keys := by
  rw [Table.values, Table.keys, List.map_map]
  exact List.map_congr_left fun e he => h.key_eq (Table.find?_eq_some_iff.2 he)

/-- Different members have different keys. -/
theorem World.nodup_map_key_members {w : World} (hs : (w.stores .gameServer).Sound) (key : Key) :
    ((w.members key).map Resource.key).Nodup := by
  have hsublist : ((w.members key).map Resource.key).Sublist
      ((w.stores .gameServer).objects.values.map Resource.key) :=
    List.filter_sublist.map Resource.key
  rw [hs.map_key_values] at hsublist
  exact hsublist.nodup (Table.nodup_keys _)

/-- What is at different places of a list without repetition is different. -/
theorem nodup_picked {α : Type} {l : List α} (hl : l.Nodup) {places : List Nat}
    (hnodup : places.Nodup) (hlt : ∀ i ∈ places, i < l.length) :
    (places.filterMap (l[·]?)).Nodup := by
  induction places with
  | nil => exact List.nodup_nil
  | cons i places ih =>
    obtain ⟨hi, hrest⟩ := List.nodup_cons.1 hnodup
    have hilt : i < l.length := hlt i List.mem_cons_self
    rw [List.filterMap_cons, List.getElem?_eq_getElem hilt]
    refine List.nodup_cons.2 ⟨fun hmem => hi ?_, ih hrest fun j hj => ?_⟩
    · obtain ⟨j, hj, hget⟩ := List.mem_filterMap.1 hmem
      rw [← List.getElem?_eq_getElem hilt] at hget
      rwa [(List.getElem?_inj hilt hl).1 hget.symm]
    · exact hlt j (List.mem_cons_of_mem _ hj)

/-! ## The pass -/

namespace Pass

variable {w : World} {key k : Key} {c : Collection} {g : GameServer} (context : PassContext)

/-- A member is detached. -/
theorem succeeds_detach (hs : (w.stores .gameServer).Sound)
    (hget : (w.stores .gameServer).get? k = some g) (hg : g.IsMember key) :
    Succeeds key (access (.modify context.retry .gameServer k (detachMarked key.name)))
      (fun _ v => w.Sheds key [k] v ∧ (v.stores .gameServer).Sound) w := by
  have hdetach : detachMarked key.name g = some (g.parted key.name) := by
    rw [detachMarked, detach_eq hg]
    rfl
  refine succeeds_modify hget (fun hleft => ?_) fun b hb => ?_
  · rw [hdetach] at hleft
    cases hleft
  obtain rfl : g.parted key.name = b := Option.some.inj (hdetach.symm.trans hb)
  have hkey : Resource.key (g.parted key.name) = k := (hs.key_eq hget : Resource.key g = k)
  have hold : (w.stores .gameServer).get? (Resource.key (g.parted key.name)) = some g := by
    rwa [hkey]
  have hadmits := Store.admits_of_update (Store.update_eq hold rfl)
  refine ⟨hkey, rfl,
    ⟨fun j hj => ?_, fun j hj => ?_, fun _ _ => ?_, fun kind hkind _ => ?_, rfl⟩, ?_⟩
  · obtain rfl := List.mem_singleton.1 hj
    refine ⟨g, (w.stores .gameServer).successor g (g.parted key.name), hget, hg, ?_,
      g.parts_successor _ _⟩
    rw [w.stores_changed, Store.get?_commit, Change.object, Store.key_successor, if_pos hkey]
    rfl
  · have hne : k ≠ j := fun heq => hj (heq ▸ List.mem_singleton_self k)
    rw [w.stores_changed, Store.get?_commit, Change.object, Store.key_successor, hkey, if_neg hne]
  · rw [w.stores_changed_of_ne (by decide)]
  · exact w.stores_changed_of_ne hkind _
  · rw [w.stores_changed]
    exact hs.commit hadmits

/-- Members under different keys are detached one after the other. -/
theorem succeeds_detachAll_sheds {parting : List Key} (hs : (w.stores .gameServer).Sound)
    (hnodup : parting.Nodup)
    (hmembers : ∀ k ∈ parting, ∃ g, (w.stores .gameServer).get? k = some g ∧ g.IsMember key) :
    Succeeds key (detachAll context key.name parting)
      (fun _ v => w.Sheds key parting v) w := by
  induction parting generalizing w with
  | nil => exact succeeds_pure (World.Sheds.refl w key)
  | cons k rest ih =>
    obtain ⟨hk, hrest⟩ := List.nodup_cons.1 hnodup
    obtain ⟨g, hget, hg⟩ := hmembers k List.mem_cons_self
    refine (succeeds_detach context hs hget hg).bind fun _ v hv => ?_
    obtain ⟨hsheds, hsound⟩ := hv
    refine (ih hsound hrest fun j hj => ?_).mono fun _ u hu => hsheds.trans hu
    have hne : j ∉ [k] := fun hmem => hk (List.mem_singleton.1 hmem ▸ hj)
    rw [hsheds.kept j hne]
    exact hmembers j (List.mem_cons_of_mem _ hj)

/-- Different members are picked, and detached. -/
theorem succeeds_scaleIn (hs : (w.stores .gameServer).Sound) (hname : c.metadata.name = key.name)
    {count : Nat} (hcount : count ≤ (w.members key).length) :
    Succeeds key (scaleIn context c (w.members key) count) (fun _ v =>
      ∃ parting, parting.Nodup ∧ parting.length = count ∧ w.Sheds key parting v) w := by
  refine (succeeds_pick hcount).bind ?_
  rintro picked v ⟨rfl, hlength, hnodup, hlt⟩
  set keys := (v.members key).map Resource.key with hkeys
  have hparting : picked.filterMap (fun i => ((v.members key)[i]?).map Resource.key) =
      picked.filterMap (keys[·]?) :=
    List.filterMap_congr fun i _ => List.getElem?_map.symm
  have hlt' : ∀ i ∈ picked, i < keys.length := by rwa [hkeys, List.length_map]
  have hdetached := nodup_picked (v.nodup_map_key_members hs key) hnodup hlt'
  rw [hparting, hname]
  refine (succeeds_detachAll_sheds context hs hdetached fun k hk => ?_).bind fun _ u hu => ?_
  · obtain ⟨i, -, hget⟩ := List.mem_filterMap.1 hk
    obtain ⟨g, hg, rfl⟩ := List.mem_map.1 (List.mem_of_getElem? hget)
    exact ⟨g, (World.mem_members hs).1 hg⟩
  · exact succeeds_record _ _ _ _ _ ⟨_, hdetached, (length_picked keys hlt').trans hlength, hu⟩

/-- The status is summed up. The collection needs no intervention then if it has needed none. -/
theorem succeeds_summed (hkey : Resource.key c = key)
    (hstored : (w.stores .collection).get? key = some c)
    (hhealth : c.status.health ≠ .needsIntervention) :
    Succeeds key
      (access (.modify context.retry .collection key (Summary.of (w.members key)).change))
      (fun found v => ∃ c', found = some c' ∧ Resource.key c' = key ∧ c'.spec = c.spec ∧
        c'.status.health ≠ .needsIntervention ∧ v.stores .gameServer = w.stores .gameServer ∧
        w.Sheds key [] v) w := by
  have hhealthFor : (Summary.of (w.members key)).healthFor c ≠ .needsIntervention := by
    rw [Summary.healthFor, if_neg fun hneeds => hhealth hneeds.1]
    exact Summary.health_of_ne _
  have hget := Summary.getD_change (Summary.of (w.members key)) c
  refine succeeds_modify hstored (fun hnone => ?_) fun b hb => ?_
  · exact ⟨c, rfl, hkey, rfl, hhealth, rfl, .refl w key⟩
  rw [hb, Option.getD_some] at hget
  subst hget
  refine ⟨hkey, rfl, _, rfl, (Store.key_successor _ _ _).trans hkey, rfl, hhealthFor,
    w.stores_changed_of_ne (by decide) _, ⟨fun k hk => by simp at hk, fun k _ => ?_,
      fun k hk => ?_, fun kind _ hkind => w.stores_changed_of_ne hkind _, rfl⟩⟩
  · rw [w.stores_changed_of_ne (by decide)]
  · rw [w.stores_changed, Store.get?_commit, Change.object, Store.key_successor]
    exact if_neg fun heq => hk (heq.symm.trans hkey)

/-- A pass that finds no failed member, and no need for intervention, goes on with the scale when
it has summed up the status. -/
theorem succeeds_collection_scale {post : Unit → World → Prop} (hkey : Resource.key c = key)
    (hstored : (w.stores .collection).get? key = some c)
    (hawake : Resource.isTerminating c = false) (hhealth : c.status.health ≠ .needsIntervention)
    (hwell : ∀ g ∈ w.members key, g.status.health ≠ .failed)
    (hscale : ∀ c' v, Resource.key c' = key → c'.spec = c.spec →
      v.stores .gameServer = w.stores .gameServer → w.Sheds key [] v →
      Succeeds key (scale context c' (w.members key)) post v) :
    Succeeds key (collection context key) post w := by
  have hcached : Succeeds key (cached .collection key) (fun found v => found = some c ∧ v = w) w :=
    succeeds_cached ⟨hstored, rfl⟩
  refine hcached.bind ?_
  rintro found v ⟨rfl, rfl⟩
  simp only [hawake]
  have hlist : Succeeds key (access (.list .gameServer c.metadata.ns c.memberSelector))
      (fun found u => found = v.members key ∧ u = v) v :=
    succeeds_list ⟨by rw [← hkey]; rfl, rfl⟩
  refine hlist.bind ?_
  rintro members w ⟨rfl, rfl⟩
  refine (succeeds_summed context hkey hstored hhealth).bind ?_
  rintro found v ⟨c', rfl, hkey', hspec, hneeds, hstores, hsheds⟩
  have hnone : ((w.members key).filter fun g => g.status.health = .failed) = [] :=
    List.filter_eq_nil_iff.2 fun g hg => by simpa using hwell g hg
  simp only [hnone, List.isEmpty_nil, Bool.not_true, Bool.false_eq_true, if_false, hneeds]
  exact hscale c' v hkey' hspec hstores hsheds

/-- When a collection that needs no intervention has more members than it asks for, and none of
them has failed, a pass that runs alone lets the surplus part from it, whichever members are
picked. Every instance that was stored is stored then, no other is, and all but those that have
parted are as they were. -/
theorem sheds_surplus (hservers : (w.stores .gameServer).Sound)
    (hcollections : (w.stores .collection).Sound)
    (hstored : (w.stores .collection).get? key = some c)
    (hawake : Resource.isTerminating c = false) (hhealth : c.status.health ≠ .needsIntervention)
    (hwell : ∀ g ∈ w.members key, g.status.health ≠ .failed)
    (hsurplus : c.spec.replicas.toNat < (w.members key).length) :
    Succeeds key (collection context key) (fun _ v =>
      (∀ k, ((v.stores .gameServer).get? k).isSome = ((w.stores .gameServer).get? k).isSome) ∧
      ∃ parting : List Key, parting.Nodup ∧
        parting.length = (w.members key).length - c.spec.replicas.toNat ∧
        w.Sheds key parting v) w := by
  refine succeeds_collection_scale context (hcollections.key_eq hstored) hstored hawake hhealth
    hwell ?_
  intro c' v hkey hspec hstores hsheds
  have hmembers : v.members key = w.members key := World.members_of_stores_eq hstores
  have hname : c'.metadata.name = key.name := congrArg Key.name hkey
  have hnot : ¬(w.members key).length < c.spec.replicas.toNat := hsurplus.not_gt
  simp only [scale, hspec, if_neg hnot, if_pos hsurplus]
  rw [← hmembers]
  refine (succeeds_scaleIn context (by rwa [hstores]) hname (Nat.sub_le _ _)).mono ?_
  rintro _ u ⟨parting, hnodup, hlength, hparted⟩
  have hall : w.Sheds key parting u := hsheds.trans hparted
  exact ⟨hall.isSome_get?, parting, hnodup, hlength, hall⟩

end Pass

/-! ## A sample -/

namespace World

/-- An instance in no collection, as it is stored after two members. -/
def bystander : GameServer := Store.newborn ⟨.empty, 2⟩ Sample.birth (Sample.gameServer "guest")

/-- A collection that asks for one member and has two, and the other instance. -/
def crowd : World := (Crew.crowdedWorld 1).changed .gameServer (.added bystander)

theorem recorded_crowd : crowd.Recorded :=
  (Crew.recorded_crowdedWorld 1).changed (Store.admits_of_create (Store.create_eq rfl))

/-- One of the two members is let go. -/
theorem sheds_one_of_two : Succeeds Sample.arenaKey (Pass.collection default Sample.arenaKey)
    (fun _ v =>
      (∀ k, ((v.stores .gameServer).get? k).isSome = ((crowd.stores .gameServer).get? k).isSome) ∧
      ∃ parting : List Key, parting.Nodup ∧
        parting.length = (crowd.members Sample.arenaKey).length -
          (Crew.crowded 1).spec.replicas.toNat ∧
        crowd.Sheds Sample.arenaKey parting v) crowd := by
  refine Pass.sheds_surplus default (recorded_crowd .gameServer).sound
    (recorded_crowd .collection).sound rfl rfl ?_ ?_ ?_
  · decide
  · decide +kernel
  · decide +kernel

end World

end GameFleet
