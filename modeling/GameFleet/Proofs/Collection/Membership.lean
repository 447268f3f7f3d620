import GameFleet.Pass.Collections
import GameFleet.Proofs.Pass.Alone
import GameFleet.Proofs.Table
import Mathlib.Algebra.Order.Group.Multiset

/-!
# Members of a collection

The members of a collection are the instances of its namespace that carry its label
(`World.members`). A change of the store brings the instance that it leaves and takes the
one that it has found, if these are members (`World.members_changed`). So a member that is
made is one more, and a member that is deleted or detached is one less.
-/

namespace GameFleet

namespace Store

variable {α : Type}

theorem values_eq_of_get? (s : Store α) (k : Key) :
    (s.objects.values : Multiset α) = (s.get? k).toList + (s.objects.erase k).values := by
  cases hget : s.get? k with
  | none => simp [Table.erase_of_find?_eq_none hget]
  | some a => exact Multiset.coe_eq_coe.2 (Table.values_perm_of_find? hget)

variable [Resource α]

theorem mem_values {s : Store α} (hs : s.Sound) {a : α} :
    a ∈ s.objects.values ↔ s.get? (Resource.key a) = some a := by
  constructor
  · intro ha
    obtain ⟨⟨k, b⟩, hmem, rfl⟩ := List.mem_map.1 ha
    have hget : s.get? k = some b := Table.find?_eq_some_iff.2 hmem
    rwa [hs.key_eq hget]
  · exact fun hget => List.mem_map_of_mem (f := Prod.snd) (Table.find?_eq_some_iff.1 hget)

/-- The objects with what a change has found are those before with what it has left. -/
theorem values_commit {s : Store α} {c : Change α} (h : s.Admits c) :
    ((s.commit c).objects.values : Multiset α) + c.before?.toList =
      s.objects.values + c.after?.toList := by
  rw [s.values_eq_of_get? (Resource.key c.object), h.before]
  cases hafter : c.after? with
  | none => simp [commit, hafter, add_comm]
  | some a =>
    have hkey : Resource.key c.object = Resource.key a := by rw [Change.object_eq_of_after? hafter]
    have hcommit : ((s.commit c).objects.values : Multiset α) =
        ↑[a] + ↑(s.objects.erase (Resource.key a)).values := by
      simp only [commit, hafter]
      exact Multiset.coe_eq_coe.2 (Table.values_insert_perm _ _ _)
    rw [hcommit, hkey, Option.toList_some]
    ac_rfl

/-- What is seen of the objects stays the same, in its order, when as much is seen of what a change
has found as of what it has left. -/
theorem filterMap_commit {β : Type} {s : Store α} {c : Change α} (h : s.Admits c) {f : α → Option β}
    (hf : c.before?.bind f = c.after?.bind f) :
    (s.commit c).objects.values.filterMap f = s.objects.values.filterMap f := by
  have hseen : (s.objects.find? (Resource.key c.object)).bind f = c.after?.bind f := by
    rw [← hf, ← h.before]
    rfl
  cases c with
  | added a => exact Table.filterMap_values_insert hseen
  | updated old a => exact Table.filterMap_values_insert hseen
  | deleted a => exact Table.filterMap_values_erase hseen

end Store

/-! ## Instances -/

namespace GameServer

/-- The instance is a member of the collection with this key. -/
def IsMember (key : Key) (g : GameServer) : Prop :=
  g.metadata.ns = key.ns ∧ g.collection? = some key.name

instance (key : Key) : DecidablePred (IsMember key) := fun g =>
  inferInstanceAs (Decidable (g.metadata.ns = key.ns ∧ g.collection? = some key.name))

/-- Whoever is detached is no member, of any collection. -/
theorem collection?_detached (g : GameServer) (collection : String) :
    (g.detached collection).collection? = none := by
  have hne : Labels.formerCollectionName ≠ Labels.collectionName := by decide
  rw [GameServer.collection?, Meta.label?, detached, Table.find?_insert, if_neg hne,
    Table.find?_erase, if_pos rfl]

/-- Membership is a matter of the namespace and the label. -/
theorem isMember_mapMeta {key : Key} {f : Meta → Meta} (hns : ∀ m, (f m).ns = m.ns)
    (hlabels : ∀ m, (f m).labels = m.labels) (g : GameServer) :
    IsMember key (Resource.mapMeta f g) ↔ IsMember key g := by
  simp only [IsMember, collection?, Meta.label?]
  change (f g.metadata).ns = key.ns ∧ (f g.metadata).labels.find? _ = _ ↔ _
  rw [hns, hlabels]

theorem isMember_newborn {key : Key} (s : Store GameServer) (birth : Birth) (g : GameServer) :
    IsMember key (s.newborn birth g) ↔ IsMember key g :=
  isMember_mapMeta (fun _ => rfl) (fun _ => rfl) g

theorem collection?_successor (s : Store GameServer) (old g : GameServer) :
    (s.successor old g).collection? = g.collection? :=
  rfl

end GameServer

/-- A new member is a member. -/
theorem Collection.isMember_newMember {c : Collection} {key : Key} (h : Resource.key c = key)
    (name : String) : GameServer.IsMember key (c.newMember name) := by
  subst h
  refine ⟨rfl, ?_⟩
  exact (Table.find?_insert _ _ _ _).trans (if_pos rfl)

/-! ## Worlds -/

namespace World

variable {w v : World} {key : Key} {g : GameServer}

/-- The members of a collection, as a list of the store has them. -/
def members (w : World) (key : Key) : List GameServer :=
  (w.stores .gameServer).objects.list (some key.ns) (.ofLabel Labels.collectionName key.name)

theorem members_eq_filter (w : World) (key : Key) :
    w.members key = (w.stores .gameServer).objects.values.filter (GameServer.IsMember key ·) := by
  refine List.filter_congr fun g _ => ?_
  rw [Selector.selects_ofLabel, Bool.eq_iff_iff, Bool.and_eq_true, beq_iff_eq, beq_iff_eq,
    decide_eq_true_iff]
  rfl

theorem mem_members (hs : (w.stores .gameServer).Sound) :
    g ∈ w.members key ↔
      (w.stores .gameServer).get? (Resource.key g) = some g ∧ g.IsMember key := by
  rw [members_eq_filter, List.mem_filter, Store.mem_values hs, decide_eq_true_iff]

theorem members_of_stores_eq (h : v.stores .gameServer = w.stores .gameServer) :
    v.members key = w.members key := by
  rw [members, members, h]

/-- The members with the one that a change has found are those before with the one that it
has left. -/
theorem members_changed (key : Key) {c : Change GameServer} (h : (w.stores .gameServer).Admits c) :
    ((w.changed .gameServer c).members key : Multiset GameServer) +
        c.before?.toList.filter (GameServer.IsMember key ·) =
      w.members key + c.after?.toList.filter (GameServer.IsMember key ·) := by
  have hvalues := congrArg (Multiset.filter (GameServer.IsMember key)) (Store.values_commit h)
  rw [Multiset.filter_add, Multiset.filter_add] at hvalues
  rw [members_eq_filter, members_eq_filter, stores_changed]
  exact hvalues

/-- A change that has found a member and left none takes the member. -/
theorem members_of_gone {c : Change GameServer} (h : (w.stores .gameServer).Admits c)
    (hbefore : c.before? = some g) (hg : g.IsMember key)
    (hafter : ∀ g', c.after? = some g' → ¬g'.IsMember key) :
    (w.members key : Multiset GameServer) = g ::ₘ (w.changed .gameServer c).members key := by
  have hmembers := members_changed key h
  have hnone : c.after?.toList.filter (GameServer.IsMember key ·) = [] := by
    refine List.filter_eq_nil_iff.2 fun g' hg' => ?_
    simpa using hafter g' (Option.mem_toList.1 hg')
  rw [hnone, hbefore, Option.toList_some, List.filter_singleton, decide_eq_true hg, cond_true,
    Multiset.coe_nil, add_zero, add_comm] at hmembers
  exact hmembers.symm

/-- A change that has found nothing and left a member brings the member. -/
theorem members_of_new {c : Change GameServer} (h : (w.stores .gameServer).Admits c)
    (hbefore : c.before? = none) (hafter : c.after? = some g) (hg : g.IsMember key) :
    ((w.changed .gameServer c).members key : Multiset GameServer) = g ::ₘ w.members key := by
  have hmembers := members_changed key h
  rw [hbefore, hafter, Option.toList_some, Option.toList_none, List.filter_nil,
    List.filter_singleton, decide_eq_true hg, cond_true, Multiset.coe_nil, add_zero,
    add_comm] at hmembers
  exact hmembers

end World

end GameFleet
