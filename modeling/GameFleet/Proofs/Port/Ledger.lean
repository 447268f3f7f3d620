import GameFleet.Proofs.Plane.World
import GameFleet.Proofs.Port.Tenancy

/-!
# A ledger of claims

A pool covers claims when each of them is in the pool and no two are to one port
(`PortPool.Covers`). The claims of a world are those of the instances that are stored, and
of those that were deleted and not cleaned up after (`World.claims`). A request that a
tenant makes moves claims between the world and the tenant, and one that the registry
serves moves ports in and out of the pool as well. Either way the pool goes on to cover
what the world claims, what the tenant holds and what anyone else holds
(`World.Serves.covers`).
-/

namespace GameFleet

/-! ## Pools -/

namespace PortPool

/-- The pool has each of the claims, and no two of them are to one port. -/
structure Covers (pool : PortPool Key) (claims : Multiset (Key × Port)) : Prop where
  nodup : (claims.map Prod.snd).Nodup
  held : ∀ c ∈ claims, pool.holder? c.2 = some c.1

variable {pool after : PortPool Key} {claims : Multiset (Key × Port)}

theorem Covers.mono {fewer : Multiset (Key × Port)} (h : pool.Covers claims)
    (hle : fewer ≤ claims) : pool.Covers fewer :=
  ⟨Multiset.nodup_of_le (Multiset.map_le_map hle) h.nodup,
    fun c hc => h.held c (Multiset.mem_of_le hle hc)⟩

/-- A free port can be claimed. -/
theorem Covers.allocate (h : pool.Covers claims) {owner : Key} {p : Port}
    (hfree : pool.holder? p = none)
    (hafter : ∀ q, after.holder? q = if p = q then some owner else pool.holder? q) :
    after.Covers ((owner, p) ::ₘ claims) := by
  have hne : ∀ c ∈ claims, p ≠ c.2 := by
    rintro c hc rfl
    have hheld := h.held c hc
    rw [hfree] at hheld
    cases hheld
  constructor
  · rw [Multiset.map_cons, Multiset.nodup_cons]
    refine ⟨fun hp => ?_, h.nodup⟩
    obtain ⟨c, hc, hcp⟩ := Multiset.mem_map.1 hp
    exact hne c hc hcp.symm
  · intro c hc
    rcases Multiset.mem_cons.1 hc with rfl | hc
    · rw [hafter, if_pos rfl]
    · rw [hafter, if_neg (hne c hc), h.held c hc]

/-- Ports that are given back are not the ports of other claims. -/
theorem Covers.release {owner : Key} {ports : List Port}
    (h : pool.Covers (claimsTo owner ports + claims))
    (hafter : ∀ q, after.holder? q =
      if q ∈ ports ∧ pool.holder? q = some owner then none else pool.holder? q) :
    after.Covers claims := by
  have hrest := h.mono (Multiset.le_add_left claims (claimsTo owner ports))
  refine ⟨hrest.nodup, fun c hc => ?_⟩
  have hports : c.2 ∉ ports := by
    intro hp
    have hnd := h.nodup
    rw [Multiset.map_add, map_snd_claimsTo, Multiset.nodup_add] at hnd
    exact Multiset.disjoint_left.1 hnd.2.2 (Multiset.mem_coe.2 hp)
      (Multiset.mem_map_of_mem Prod.snd hc)
  rw [hafter, if_neg fun hboth => hports hboth.1, hrest.held c hc]

end PortPool

/-! ## Harmless answers -/

namespace Tenant

theorem shown_eq_nil {request : Request} {answer : request.Answer}
    (h : request.Harmless answer) : shown request answer = [] := by
  cases request with
  | cached kind key => cases kind <;> cases answer <;> first | rfl | exact h.elim
  | get kind key => cases kind <;> cases answer <;> first | rfl | exact h.elim
  | _ => rfl

theorem heldAfter_le {request : Request} {answer : request.Answer}
    (h : request.Harmless answer) (held : Multiset (Key × Port)) :
    heldAfter held request answer ≤ held := by
  cases request with
  | create kind a => cases kind <;> cases answer <;> first | exact le_rfl | exact h.elim
  | update kind a => cases kind <;> cases answer <;> first | exact le_rfl | exact h.elim
  | allocate owner => cases answer <;> first | exact le_rfl | exact h.elim
  | release owner ports => exact Multiset.zero_le held
  | _ => exact le_rfl

end Tenant

/-! ## Worlds -/

namespace Store

theorem claims_newborn (s : Store GameServer) (birth : Birth) (g : GameServer) :
    (s.newborn birth g).claims = g.claims := by
  rw [GameServer.claims, GameServer.claims, key_newborn]
  rfl

theorem claims_successor (s : Store GameServer) (old g : GameServer) :
    (s.successor old g).claims = g.claims := by
  rw [GameServer.claims, GameServer.claims, key_successor]
  rfl

end Store

namespace World

/-- The claims of the instances that are stored, or gone and not cleaned up after. -/
def claims (w : World) : Multiset (Key × Port) :=
  (w.stores .gameServer).claims + (w.departed.flatMap GameServer.claims : List (Key × Port))

variable {w v : World}

/-- What becomes of other objects does not touch claims. -/
theorem claims_commit_of_ne {kind : Kind} (hkind : kind ≠ .gameServer) (c : Change kind.Obj)
    (s : Store kind.Obj) : (w.commit kind c s).claims = w.claims := by
  have hdepart : c.departures kind = [] := by
    cases kind with
    | gameServer => exact absurd rfl hkind
    | _ => rfl
  simp [claims, commit, hdepart, Function.update_of_ne hkind.symm]

theorem claims_create {birth : Birth} {g : GameServer} {c : Change GameServer}
    {s : Store GameServer} (h : (w.stores .gameServer).create birth g = .ok (c, s)) :
    (w.commit .gameServer c s).claims = w.claims + g.claims := by
  have hcommit := Store.claims_commit (Store.admits_of_create h)
  obtain ⟨-, rfl, rfl⟩ := Store.create_eq_ok h
  simp only [Change.before?, Change.after?, Store.claimsOf, Option.elim, Store.claims_newborn,
    add_zero] at hcommit
  simp only [claims, commit, Change.departures, Function.update_self, List.append_nil, hcommit]
  ac_rfl

theorem claims_update {g : GameServer} {c : Change GameServer} {s : Store GameServer}
    (h : (w.stores .gameServer).update g = .ok (c, s)) :
    ∃ old : GameServer, (w.stores .gameServer).get? (Resource.key g) = some old ∧
      Resource.version old = Resource.version g ∧
      (w.commit .gameServer c s).claims + old.claims = w.claims + g.claims := by
  have hcommit := Store.claims_commit (Store.admits_of_update h)
  obtain ⟨old, hold, hversion, rfl, rfl⟩ := Store.update_eq_ok h
  refine ⟨old, hold, hversion, ?_⟩
  simp only [Change.before?, Change.after?, Store.claimsOf, Option.elim, Store.claims_successor]
    at hcommit
  simp only [claims, commit, Change.departures, Function.update_self, List.append_nil]
  rw [add_right_comm, hcommit]
  ac_rfl

/-- The claims of an instance stay when it is deleted, until it is cleaned up after. -/
theorem claims_delete (hw : w.Recorded) {key : Key} {c : Change GameServer}
    {s : Store GameServer} (h : (w.stores .gameServer).delete key = .ok (c, s)) :
    (w.commit .gameServer c s).claims = w.claims := by
  have hcommit := Store.claims_commit (Store.admits_of_delete (hw .gameServer).sound h)
  obtain ⟨old, hold, rfl, rfl⟩ := Store.delete_eq_ok (hw .gameServer).sound h
  simp only [Change.before?, Change.after?, Store.claimsOf, Option.elim, add_zero] at hcommit
  simp only [claims, commit, Change.departures, Function.update_self, List.flatMap_append,
    List.flatMap_singleton, ← Multiset.coe_add, ← hcommit]
  ac_rfl

/-! ## Served requests -/

/-- Instances that an answer shows were stored so at some moment. -/
theorem Serves.past_shown {request : Request} {answer : request.Answer}
    (hs : Serves w request answer v) (hw : w.Recorded) :
    ∀ g ∈ Tenant.shown request answer, v.Past .gameServer g := by
  intro g hg
  cases hs with
  | harmless h =>
    rw [Tenant.shown_eq_nil h] at hg
    cases hg
  | @cached kind key found h =>
    cases kind with
    | gameServer => exact (h g (Option.mem_toList.1 hg)).2
    | _ => cases hg
  | @get kind key =>
    cases kind with
    | gameServer => exact past_of_get? hw (Option.mem_toList.1 hg)
    | _ => cases hg
  | _ => cases hg

variable {t : Tenant} {others : Multiset (Key × Port)}

/-- An instance that a tenant may update is stored as it was found, or the update fails. So
it claims what it claimed before, and what the tenant held. -/
theorem claims_update_of_may (hw : w.Recorded) (hseen : ∀ g ∈ t.seen, w.Past .gameServer g)
    {g : GameServer} (hmay : t.May (.update .gameServer g)) {c : Change GameServer}
    {s : Store GameServer} (h : (w.stores .gameServer).update g = .ok (c, s)) :
    (w.commit .gameServer c s).claims = w.claims + t.held := by
  obtain ⟨old, hold, hkey, hversion, hclaims⟩ := hmay
  obtain ⟨stored, hstored, hsame, hcommit⟩ := claims_update h
  rw [hkey] at hstored
  obtain rfl : old = stored := @eq_of_past w .gameServer hw old stored (hseen old hold) hstored
    (hversion.symm.trans hsame.symm)
  rw [hclaims, ← add_assoc, add_right_comm] at hcommit
  exact add_right_cancel hcommit

/-- A creation moves what the tenant held to the world. -/
theorem claims_create_after {kind : Kind} {birth : Birth} {a : kind.Obj} {c : Change kind.Obj}
    {s : Store kind.Obj} (hmay : t.May (.create kind a))
    (h : (w.stores kind).create birth a = .ok (c, s)) :
    (w.commit kind c s).claims + (t.after (.create kind a) (.ok c.object)).held =
      w.claims + t.held := by
  by_cases hkind : kind = .gameServer
  · subst hkind
    have hheld : (t.after (.create .gameServer a) (.ok c.object)).held = 0 := rfl
    rw [claims_create h, hmay, hheld, add_zero]
  · have hheld : (t.after (.create kind a) (.ok c.object)).held = t.held :=
      Tenant.heldAfter_of_idle (Request.idle_create hkind a) t.held _
    rw [claims_commit_of_ne hkind, hheld]

/-- So does an update. -/
theorem claims_update_after {kind : Kind} {a : kind.Obj} {c : Change kind.Obj}
    {s : Store kind.Obj} (hw : w.Recorded) (hseen : ∀ g ∈ t.seen, w.Past .gameServer g)
    (hmay : t.May (.update kind a)) (h : (w.stores kind).update a = .ok (c, s)) :
    (w.commit kind c s).claims + (t.after (.update kind a) (.ok c.object)).held =
      w.claims + t.held := by
  by_cases hkind : kind = .gameServer
  · subst hkind
    have hheld : (t.after (.update .gameServer a) (.ok c.object)).held = 0 := rfl
    rw [claims_update_of_may hw hseen hmay h, hheld, add_zero]
  · have hheld : (t.after (.update kind a) (.ok c.object)).held = t.held :=
      Tenant.heldAfter_of_idle (Request.idle_update hkind a) t.held _
    rw [claims_commit_of_ne hkind, hheld]

/-- A port that is allocated was free, and is claimed by the tenant then. -/
theorem covers_allocate (hquiet : w.registry.Quiet) (owner : Key)
    (h : w.registry.pool.Covers (w.claims + t.held + others)) :
    (w.registry.allocate owner).2.Quiet ∧ (w.registry.allocate owner).2.pool.Covers
      (w.claims + (t.after (.allocate owner) (w.registry.allocate owner).1).held + others) := by
  obtain ⟨hafter, ⟨⟨e, he⟩, hpool⟩ | ⟨p, hp, hfree, hholder⟩⟩ :=
    Registry.allocate_cases hquiet owner
  · rw [he, hpool]
    exact ⟨hafter, h⟩
  · rw [hp]
    have hheld : (t.after (.allocate owner) (.ok p)).held = (owner, p) ::ₘ t.held := rfl
    rw [hheld, Multiset.add_cons, Multiset.cons_add]
    exact ⟨hafter, h.allocate hfree hholder⟩

/-- The ports that a tenant gives back are its own, so no one else loses any. -/
theorem covers_release (hquiet : w.registry.Quiet) {owner : Key} {ports : List Port}
    (hmay : t.May (.release owner ports))
    (h : w.registry.pool.Covers (w.claims + t.held + others)) :
    (w.registry.release owner ports).2.Quiet ∧ (w.registry.release owner ports).2.pool.Covers
      (w.claims + (t.after (.release owner ports) (w.registry.release owner ports).1).held +
        others) := by
  have hheld : (t.after (.release owner ports) (w.registry.release owner ports).1).held = 0 := rfl
  rw [hheld, add_zero]
  rw [← hmay, add_right_comm, add_comm] at h
  obtain ⟨hafter, hpool | hholder⟩ := Registry.release_cases hquiet owner ports
  · rw [hpool]
    exact ⟨hafter, h.mono (Multiset.le_add_left _ _)⟩
  · exact ⟨hafter, h.release hholder⟩

/-- A pool that covers the claims of the world and those that a tenant and others hold does
so after a request of the tenant was served. -/
theorem Serves.covers {request : Request} {answer : request.Answer}
    (hs : Serves w request answer v) (hw : w.Recorded) (hquiet : w.registry.Quiet)
    (hmay : t.May request) (hseen : ∀ g ∈ t.seen, w.Past .gameServer g)
    (h : w.registry.pool.Covers (w.claims + t.held + others)) :
    v.registry.Quiet ∧
      v.registry.pool.Covers (v.claims + (t.after request answer).held + others) := by
  cases hs with
  | harmless hharmless =>
    have hle := Tenant.heldAfter_le hharmless t.held
    exact ⟨hquiet, h.mono (add_le_add_left (add_le_add_right hle _) _)⟩
  | cached _ => exact ⟨hquiet, h⟩
  | cachedList _ => exact ⟨hquiet, h⟩
  | get => exact ⟨hquiet, h⟩
  | list => exact ⟨hquiet, h⟩
  | create hcreate =>
    rw [claims_create_after hmay hcreate]
    exact ⟨hquiet, h⟩
  | update hupdate =>
    rw [claims_update_after hw hseen hmay hupdate]
    exact ⟨hquiet, h⟩
  | @delete kind key c s hdelete =>
    refine ⟨hquiet, ?_⟩
    by_cases hkind : kind = .gameServer
    · subst hkind
      rwa [claims_delete hw hdelete]
    · rwa [claims_commit_of_ne hkind]
  | @allocate owner => exact covers_allocate hquiet owner h
  | release => exact covers_release hquiet hmay h

end World

end GameFleet
