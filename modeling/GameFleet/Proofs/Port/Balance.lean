import GameFleet.Proofs.Port.Ledger

/-!
# Balanced pools

A pool balances claims when it covers them and has nothing else (`PortPool.Balances`) : then each
port that is taken is claimed by its holder. A request that a tenant makes moves ports and claims
together, so a pool that balances what the world claims and what tenants hold goes on to do so, as
long as the registry refuses no release (`World.Serves.balances`).
-/

namespace GameFleet

/-! ## Pools -/

namespace PortPool

/-- The pool has the claims and nothing else, and no two of them are to one port. -/
structure Balances (pool : PortPool Key) (claims : Multiset (Key × Port)) : Prop
    extends pool.Covers claims where
  claimed : ∀ p k, pool.holder? p = some k → (k, p) ∈ claims

variable {pool after : PortPool Key} {claims : Multiset (Key × Port)}

theorem Balances.allocate (h : pool.Balances claims) {owner : Key} {p : Port}
    (hfree : pool.holder? p = none)
    (hafter : ∀ q, after.holder? q = if p = q then some owner else pool.holder? q) :
    after.Balances ((owner, p) ::ₘ claims) := by
  refine ⟨h.toCovers.allocate hfree hafter, fun q k hq => ?_⟩
  rw [hafter] at hq
  split at hq
  · next hp =>
    rw [← Option.some.inj hq, hp]
    exact Multiset.mem_cons_self _ _
  · exact Multiset.mem_cons_of_mem (h.claimed q k hq)

theorem Balances.release {owner : Key} {ports : List Port}
    (h : pool.Balances (claimsTo owner ports + claims))
    (hafter : ∀ q, after.holder? q =
      if q ∈ ports ∧ pool.holder? q = some owner then none else pool.holder? q) :
    after.Balances claims := by
  refine ⟨h.toCovers.release hafter, fun q k hq => ?_⟩
  rw [hafter] at hq
  split at hq
  · cases hq
  · next hnot =>
    refine (Multiset.mem_add.1 (h.claimed q k hq)).resolve_left fun hmem => hnot ?_
    obtain ⟨p, hp, heq⟩ := List.mem_map.1 (Multiset.mem_coe.1 hmem)
    cases heq
    exact ⟨hp, hq⟩

end PortPool

/-- A release that is not refused frees what the owner holds of the ports. -/
theorem Registry.holder?_release {r : Registry} (h : r.Quiet) {owner : Key} {ports : List Port}
    {freed : Nat} (hok : (r.release owner ports).1 = .ok freed) (q : Port) :
    (r.release owner ports).2.pool.holder? q =
      if q ∈ ports ∧ r.pool.holder? q = some owner then none else r.pool.holder? q := by
  unfold release at hok ⊢
  split
  · next hempty => simp [List.isEmpty_iff.1 hempty]
  · next hports =>
    obtain ⟨-, hcases⟩ := call_cases h (.release owner ports)
    rw [if_neg hports] at hok
    cases hcall : r.call (.release owner ports) with
    | mk answer after =>
      simp only [hcall] at hok hcases
      rcases hcases with ⟨rfl, -⟩ | ⟨rfl, hpool⟩
      · cases hok
      · change after.pool.holder? q = _
        rw [hpool]
        exact PortPool.holder?_release _ _ _ _

/-! ## Served requests -/

/-- The registry refuses a release. -/
def Request.Refused : (request : Request) → request.Answer → Prop
  | .release _ _, .error _ => True
  | _, _ => False

theorem Tenant.heldAfter_eq {request : Request} {answer : request.Answer}
    (h : request.Harmless answer) (hrefused : ¬request.Refused answer)
    (held : Multiset (Key × Port)) : heldAfter held request answer = held := by
  cases request with
  | create kind a => cases kind <;> cases answer <;> first | rfl | exact h.elim
  | update kind a => cases kind <;> cases answer <;> first | rfl | exact h.elim
  | allocate owner => cases answer <;> first | rfl | exact h.elim
  | release owner ports => cases answer <;> first | exact h.elim | exact absurd trivial hrefused
  | _ => rfl

namespace World

variable {w v : World} {t : Tenant} {others : Multiset (Key × Port)}

theorem balances_allocate (hquiet : w.registry.Quiet) (owner : Key)
    (h : w.registry.pool.Balances (w.claims + t.held + others)) :
    (w.registry.allocate owner).2.pool.Balances
      (w.claims + (t.after (.allocate owner) (w.registry.allocate owner).1).held + others) := by
  obtain ⟨-, ⟨⟨e, he⟩, hpool⟩ | ⟨p, hp, hfree, hholder⟩⟩ := Registry.allocate_cases hquiet owner
  · rw [he, hpool]
    exact h
  · rw [hp]
    have hheld : (t.after (.allocate owner) (.ok p)).held = (owner, p) ::ₘ t.held := rfl
    rw [hheld, Multiset.add_cons, Multiset.cons_add]
    exact h.allocate hfree hholder

theorem balances_release (hquiet : w.registry.Quiet) {owner : Key} {ports : List Port}
    (hmay : t.May (.release owner ports))
    (hrefused : ¬(Request.release owner ports).Refused (w.registry.release owner ports).1)
    (h : w.registry.pool.Balances (w.claims + t.held + others)) :
    (w.registry.release owner ports).2.pool.Balances
      (w.claims + (t.after (.release owner ports) (w.registry.release owner ports).1).held +
        others) := by
  have hheld : (t.after (.release owner ports) (w.registry.release owner ports).1).held = 0 := rfl
  rw [hheld, add_zero]
  rw [← hmay, add_right_comm, add_comm] at h
  cases hok : (w.registry.release owner ports).1 with
  | ok freed => exact h.release (Registry.holder?_release hquiet hok)
  | error e => exact absurd (hok ▸ trivial) hrefused

/-- A pool that balances the claims of the world and those that a tenant and others hold does so
after a request of the tenant was served. -/
theorem Serves.balances {request : Request} {answer : request.Answer}
    (hs : Serves w request answer v) (hw : w.Recorded) (hquiet : w.registry.Quiet)
    (hmay : t.May request) (hseen : ∀ g ∈ t.seen, w.Past .gameServer g)
    (hrefused : ¬request.Refused answer)
    (h : w.registry.pool.Balances (w.claims + t.held + others)) :
    v.registry.pool.Balances (v.claims + (t.after request answer).held + others) := by
  cases hs with
  | harmless hharmless =>
    change w.registry.pool.Balances (w.claims + Tenant.heldAfter t.held request answer + others)
    rwa [Tenant.heldAfter_eq hharmless hrefused]
  | cached _ => exact h
  | cachedList _ => exact h
  | get => exact h
  | list => exact h
  | create hcreate => rwa [claims_create_after hmay hcreate]
  | update hupdate => rwa [claims_update_after hw hseen hmay hupdate]
  | @delete kind key c s hdelete =>
    by_cases hkind : kind = .gameServer
    · subst hkind
      rwa [claims_delete hw hdelete]
    · rwa [claims_commit_of_ne hkind]
  | @allocate owner => exact balances_allocate hquiet owner h
  | release => exact balances_release hquiet hmay hrefused h

end World

end GameFleet
