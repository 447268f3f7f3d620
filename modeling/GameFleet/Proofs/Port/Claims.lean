import GameFleet.Proofs.Port.Registry
import GameFleet.Proofs.Store.History
import GameFleet.Proofs.Table
import Mathlib.Algebra.Order.Group.Multiset

/-!
# Claims of instances

An instance claims its exposed host ports for its key (`GameServer.claims`), and a store
has the claims of its instances (`Store.claims`). The lemmas here say how claims move. A
change of a store brings the claims of what it stores and takes those of what it replaces
(`Store.claims_commit`). A template that is filled adds the host ports it is filled with to
those it had (`GameServer.exposed_filled`), and replaces all of them when every exposed
port is filled.
-/

namespace GameFleet

/-! ## Filled templates -/

namespace Template

/-- Ports that want a host port get one each of a list, and are exposed with it. -/
theorem hostPorts_fillPorts {exposes wants : ContainerPort → Bool}
    (hexposes : ∀ p h, exposes { p with hostPort := some h } = exposes p)
    (hwants : ∀ p, wants p = true → exposes p = true) (ps : List ContainerPort)
    {hs : List Port} (hlen : hs.length = ps.countP wants) :
    (((fillPorts wants ps hs).1.filter exposes).filterMap (·.hostPort)).Perm
      ((ps.filter fun p => exposes p && !wants p).filterMap (·.hostPort) ++ hs) := by
  induction ps generalizing hs with
  | nil => simp_all [fillPorts]
  | cons p ps ih =>
    by_cases hp : wants p = true
    · rw [List.countP_cons_of_pos hp] at hlen
      obtain ⟨h, hs, rfl⟩ : ∃ h tl, hs = h :: tl := List.exists_cons_of_length_eq_add_one hlen
      have hrest := @ih hs (by simpa using hlen)
      simp only [fillPorts, hp, if_true, List.tail_cons, List.filter_cons, hexposes, hwants p hp,
        Bool.not_true, Bool.and_false, Bool.false_eq_true, if_false]
      exact (hrest.cons h).trans List.perm_middle.symm
    · rw [List.countP_cons_of_neg hp] at hlen
      have hrest := ih hlen
      simp only [fillPorts, hp, Bool.false_eq_true, if_false, List.filter_cons, Bool.not_false,
        Bool.and_true]
      by_cases he : exposes p = true
      · simp only [he, if_true, List.filterMap_cons]
        cases p.hostPort with
        | none => exact hrest
        | some h => exact hrest.cons h
      · simp only [he, Bool.false_eq_true, if_false]
        exact hrest

end Template

namespace GameServer

/-- The instance with its template filled. -/
def withFilled (g : GameServer) (wants : ContainerPort → Bool) (hs : List Port) : GameServer :=
  { g with spec := { g.spec with template := g.spec.template.filled wants hs } }

theorem exposed_withFilled (g : GameServer) {wants : ContainerPort → Bool}
    (hwants : ∀ p, wants p = true → g.exposes p = true) {hs : List Port}
    (hlen : hs.length = g.spec.template.ports.countP wants) :
    (g.withFilled wants hs).exposedHostPorts.Perm
      ((g.spec.template.ports.filter fun p => g.exposes p && !wants p).filterMap (·.hostPort) ++
        hs) := by
  unfold exposedHostPorts
  have hports : (g.withFilled wants hs).spec.template.ports =
      (Template.fillPorts wants g.spec.template.ports hs).1 := Template.ports_filled _ _ _
  rw [hports]
  exact Template.hostPorts_fillPorts (fun _ _ => rfl) hwants _ hlen

/-- An instance whose exposed ports are all filled claims what they are filled with. -/
theorem claims_filled_exposed (g : GameServer) {hs : List Port}
    (hlen : hs.length = g.spec.template.ports.countP g.exposes) :
    (g.withFilled g.exposes hs).claims.Perm (hs.map (Resource.key g, ·)) := by
  have hexposed := g.exposed_withFilled (fun _ hp => hp) hlen
  simp only [Bool.and_not_self, List.filter_false, List.filterMap_nil, List.nil_append] at hexposed
  exact hexposed.map _

/-- The exposed ports that do not await a host port have all that are there. -/
theorem hostPorts_settled (g : GameServer) (ps : List ContainerPort) :
    (ps.filter fun p => g.exposes p && !g.awaitsHostPort p).filterMap (·.hostPort) =
      (ps.filter g.exposes).filterMap (·.hostPort) := by
  induction ps with
  | nil => rfl
  | cons p ps ih =>
    rw [List.filter_cons, List.filter_cons]
    cases he : g.exposes p with
    | false => simpa [he] using ih
    | true =>
      cases hh : p.hostPort with
      | none => simpa [he, hh, awaitsHostPort] using ih
      | some h => simpa [he, hh, awaitsHostPort] using ih

/-- An instance whose exposed ports are filled where they had no host port claims what they
are filled with beside what it claimed. -/
theorem claims_filled_awaiting (g : GameServer) {hs : List Port}
    (hlen : hs.length = g.spec.template.ports.countP g.awaitsHostPort) :
    (g.withFilled g.awaitsHostPort hs).claims.Perm
      (g.claims ++ hs.map (Resource.key g, ·)) := by
  have hwants : ∀ p, g.awaitsHostPort p = true → g.exposes p = true := fun p hp =>
    (Bool.and_eq_true_iff.1 hp).1
  have hexposed := g.exposed_withFilled hwants hlen
  rw [hostPorts_settled] at hexposed
  have hmap := hexposed.map (Resource.key g, ·)
  rwa [List.map_append] at hmap

end GameServer

/-! ## Collected claims -/

/-- The claims of an owner to some ports. -/
def claimsTo (owner : Key) (ports : List Port) : Multiset (Key × Port) :=
  (ports.map (owner, ·) : List (Key × Port))

theorem map_snd_claimsTo (owner : Key) (ports : List Port) :
    (claimsTo owner ports).map Prod.snd = ports := by
  rw [claimsTo, Multiset.map_coe, List.map_map]
  simp [Function.comp_def]

theorem claimsTo_append_singleton (owner : Key) (ports : List Port) (p : Port) :
    claimsTo owner (ports ++ [p]) = (owner, p) ::ₘ claimsTo owner ports := by
  rw [claimsTo, claimsTo, List.map_append, List.map_singleton, Multiset.cons_coe,
    Multiset.coe_eq_coe]
  exact List.perm_append_singleton _ _

/-! ## Stores of instances -/

namespace Store

/-- The claims of all instances. -/
def claims (s : Store GameServer) : Multiset (Key × Port) :=
  (s.objects.values.flatMap GameServer.claims : List (Key × Port))

/-- The claims of an object that may be there. -/
def claimsOf (g? : Option GameServer) : Multiset (Key × Port) :=
  g?.elim 0 fun g => (g.claims : Multiset (Key × Port))

theorem claims_eq_of_get? (s : Store GameServer) (k : Key) :
    s.claims = claimsOf (s.get? k) +
      ((s.objects.erase k).values.flatMap GameServer.claims : List (Key × Port)) := by
  unfold claims
  cases hget : s.get? k with
  | none => simp [claimsOf, Table.erase_of_find?_eq_none hget]
  | some g =>
    rw [claimsOf, Option.elim, Multiset.coe_add, Multiset.coe_eq_coe, ← List.flatMap_cons]
    exact (Table.values_perm_of_find? hget).flatMap_right _

/-- A change brings the claims of what it leaves and takes those of what it has found. -/
theorem claims_commit {s : Store GameServer} {c : Change GameServer} (h : s.Admits c) :
    (s.commit c).claims + claimsOf c.before? = s.claims + claimsOf c.after? := by
  rw [s.claims_eq_of_get? (Resource.key c.object), h.before]
  cases hafter : c.after? with
  | none =>
    simp [claims, commit, hafter, claimsOf, add_comm]
  | some g =>
    have hkey : Resource.key c.object = Resource.key g := by rw [Change.object_eq_of_after? hafter]
    have hcommit : (s.commit c).claims = (g.claims : Multiset (Key × Port)) +
        ((s.objects.erase (Resource.key g)).values.flatMap GameServer.claims :
          List (Key × Port)) := by
      simp only [claims, commit, hafter]
      rw [Multiset.coe_add, Multiset.coe_eq_coe, ← List.flatMap_cons]
      exact (Table.values_insert_perm _ _ _).flatMap_right _
    rw [hcommit, hkey]
    simp only [claimsOf, Option.elim]
    ac_rfl

end Store

end GameFleet
