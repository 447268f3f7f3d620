import GameFleet.Proofs.Port.Supply

/-!
# The order of a pool

A pool is sound if its order is a permutation of its range, the cursor is a place of it, and only
ports of it are held (`PortPool.Sound`). Allocations and releases keep a pool sound. A draft is sound
if the ports that it has registered are the ones that are held, each once and in the range, and then
the pool that it becomes is sound, however the others are shuffled (`PortPool.Draft.Sound.build`).
-/

namespace GameFleet

/-! ## Ranges -/

namespace PortRange

variable {r : PortRange} {p : Port}

theorem contains_iff : r.contains p = true ↔ r.low ≤ p ∧ p ≤ r.high := by
  simp [contains]

theorem ofNat_toNat_of_mem {n : Nat} (h : n ∈ List.range' r.low.toNat r.size) :
    (UInt16.ofNat n).toNat = n := by
  have hle := UInt16.le_iff_toNat_le.1 r.low_le_high
  have hhigh := r.high.toNat_lt
  rw [List.mem_range'_1, size] at h
  rw [UInt16.toNat_ofNat']
  omega

theorem mem_ports : p ∈ r.ports ↔ r.low ≤ p ∧ p ≤ r.high := by
  have hle := UInt16.le_iff_toNat_le.1 r.low_le_high
  rw [ports, List.mem_map]
  constructor
  · rintro ⟨n, hn, rfl⟩
    have htoNat := ofNat_toNat_of_mem hn
    rw [List.mem_range'_1, size] at hn
    rw [UInt16.le_iff_toNat_le, UInt16.le_iff_toNat_le, htoNat]
    omega
  · rintro ⟨hlow, hhigh⟩
    rw [UInt16.le_iff_toNat_le] at hlow hhigh
    refine ⟨p.toNat, ?_, UInt16.ofNat_toNat⟩
    rw [List.mem_range'_1, size]
    omega

theorem nodup_ports : r.ports.Nodup := by
  refine List.Nodup.map_on (fun m hm n hn heq => ?_) List.nodup_range'
  rw [← ofNat_toNat_of_mem hm, heq, ofNat_toNat_of_mem hn]

theorem length_ports : r.ports.length = r.size := by
  rw [ports, List.length_map, List.length_range']

end PortRange

namespace PortPool

variable {ω : Type}

/-! ## Pools -/

structure Sound (pool : PortPool ω) : Prop where
  order : pool.order.Perm pool.range.ports
  cursor : pool.cursor < pool.order.length
  holders : ∀ p owner, pool.holder? p = some owner → p ∈ pool.order

namespace Sound

variable {pool after : PortPool ω} {owner : ω} {p : Port}

theorem mem_order (h : pool.Sound) : p ∈ pool.order ↔ pool.range.low ≤ p ∧ p ≤ pool.range.high :=
  h.order.mem_iff.trans PortRange.mem_ports

/-- The free ports are those of the range that no one holds. -/
theorem mem_free (h : pool.Sound) :
    p ∈ pool.free ↔ (pool.range.low ≤ p ∧ p ≤ pool.range.high) ∧ pool.holder? p = none := by
  rw [PortPool.mem_free, h.mem_order]

end Sound

/-- An allocation finds a place in the order, and changes only the holder of the port there and the
cursor. -/
theorem allocate_eq_place {pool after : PortPool ω} {owner : ω} {p : Port}
    (h : pool.allocate owner = .ok (p, after)) : p ∈ pool.order ∧ ∃ i, after = { pool with
      holders := pool.holders.insert p owner
      cursor := (i + 1) % pool.order.length } := by
  unfold allocate at h
  split at h
  · next q i hsearch =>
    cases h
    rw [search_eq_find?] at hsearch
    refine ⟨pool.circuit_perm.mem_iff.1 ?_, i, rfl⟩
    exact List.mem_map_of_mem (f := Prod.fst) (List.mem_of_find?_eq_some hsearch)
  · cases h

theorem Sound.allocate {pool after : PortPool ω} {owner : ω} {p : Port} (h : pool.Sound)
    (hallocate : pool.allocate owner = .ok (p, after)) :
    after.Sound ∧ after.range = pool.range := by
  have hholder := (allocate_eq_ok hallocate).2
  obtain ⟨hp, i, rfl⟩ := allocate_eq_place hallocate
  refine ⟨⟨h.order, Nat.mod_lt _ (List.length_pos_of_mem hp), fun q other hq => ?_⟩, rfl⟩
  rw [hholder] at hq
  split at hq
  · next heq => exact heq ▸ hp
  · exact h.holders q other hq

theorem range_release [DecidableEq ω] (pool : PortPool ω) (owner : ω) (ps : List Port) :
    (pool.release owner ps).2.range = pool.range ∧ (pool.release owner ps).2.order = pool.order ∧
      (pool.release owner ps).2.cursor = pool.cursor := by
  induction ps generalizing pool with
  | nil => exact ⟨rfl, rfl, rfl⟩
  | cons p ps ih =>
    rw [release]
    split
    · exact ih { pool with holders := pool.holders.erase p }
    · exact ih pool

theorem Sound.release [DecidableEq ω] {pool : PortPool ω} (h : pool.Sound) (owner : ω)
    (ps : List Port) : (pool.release owner ps).2.Sound ∧
      (pool.release owner ps).2.range = pool.range := by
  obtain ⟨hrange, horder, hcursor⟩ := pool.range_release owner ps
  refine ⟨⟨?_, ?_, fun q other hq => ?_⟩, hrange⟩
  · rw [horder, hrange]
    exact h.order
  · rw [hcursor, horder]
    exact h.cursor
  · rw [holder?_release] at hq
    split at hq
    · cases hq
    · exact horder.symm ▸ h.holders q other hq

/-- Without a free port an allocation changes nothing. -/
theorem allocate_of_full {pool : PortPool ω} (h : pool.free = ∅) (owner : ω) :
    pool.allocate owner = .error (.exhausted pool.range.low pool.range.high) := by
  have hnone : pool.search = none := by
    rw [search_eq_find?, List.find?_eq_none]
    intro place hplace hfree
    have hmem : place.1 ∈ pool.free := PortPool.mem_free.2
      ⟨pool.circuit_perm.mem_iff.1 (List.mem_map_of_mem (f := Prod.fst) hplace), by
        simpa [isFree] using hfree⟩
    rw [h] at hmem
    cases hmem
  rw [allocate, hnone]

/-! ## Drafts -/

namespace Draft

structure Sound (d : Draft ω) : Prop where
  nodup : d.registered.Nodup
  held : ∀ p, p ∈ d.registered ↔ (d.holders.find? p).isSome
  range : ∀ p ∈ d.registered, d.range.low ≤ p ∧ p ≤ d.range.high

theorem sound_new (range : PortRange) : (new range : Draft ω).Sound :=
  ⟨List.nodup_nil, fun p => by simp [new, Table.find?_empty], nofun⟩

/-- Who claims a port of the range that nobody has gets it, and any other claim changes nothing. -/
theorem claim_cases (d : Draft ω) (owner : ω) (p : Port) :
    (d.range.contains p = true ∧ d.holders.find? p = none ∧
      (d.register owner p).toOption.getD d =
        { d with holders := d.holders.insert p owner, registered := d.registered ++ [p] }) ∨
    ((d.range.contains p = false ∨ (d.holders.find? p).isSome) ∧
      (d.register owner p).toOption.getD d = d) := by
  unfold register
  cases hrange : d.range.contains p with
  | false => exact .inr ⟨.inl rfl, rfl⟩
  | true =>
    cases hheld : d.holders.find? p with
    | none =>
      refine .inl ⟨rfl, rfl, ?_⟩
      simp [Table.contains, hheld, Except.toOption]
    | some other =>
      refine .inr ⟨.inr rfl, ?_⟩
      simp [Table.contains, hheld, Except.toOption]

theorem Sound.claim {d : Draft ω} (h : d.Sound) (owner : ω) (p : Port) :
    ((d.register owner p).toOption.getD d).Sound := by
  rcases d.claim_cases owner p with ⟨hrange, hfree, heq⟩ | ⟨-, heq⟩ <;> rw [heq]
  · have hnot : p ∉ d.registered := fun hp => by simpa [hfree] using (h.held p).1 hp
    constructor
    case nodup =>
      refine List.Nodup.append h.nodup (List.nodup_singleton p) ?_
      exact List.disjoint_singleton.2 hnot
    case held =>
      intro q
      rw [List.mem_append, List.mem_singleton, h.held, Table.find?_insert]
      by_cases hq : p = q
      · simp [hq]
      · simp [hq, Ne.symm hq]
    case range =>
      intro q hq
      rcases List.mem_append.1 hq with hq | hq
      · exact h.range q hq
      · obtain rfl := List.mem_singleton.1 hq
        exact PortRange.contains_iff.1 hrange
  · exact h

theorem Sound.claimAll {d : Draft ω} (h : d.Sound) (claims : List (ω × Port)) :
    (d.claimAll claims).Sound := by
  induction claims generalizing d with
  | nil => exact h
  | cons c cs ih => exact ih (h.claim c.1 c.2)

theorem range_claimAll (d : Draft ω) (claims : List (ω × Port)) :
    (d.claimAll claims).range = d.range := by
  induction claims generalizing d with
  | nil => rfl
  | cons c cs ih =>
    have hnext : ((d.register c.1 c.2).toOption.getD d).range = d.range := by
      rcases d.claim_cases c.1 c.2 with ⟨-, -, heq⟩ | ⟨-, heq⟩ <;> rw [heq]
    exact (ih _).trans hnext

/-- A port is held by who held it before, or by the first who claims it if it is in the range. -/
theorem find?_claimAll_first (d : Draft ω) (claims : List (ω × Port)) (p : Port) :
    (d.claimAll claims).holders.find? p = (d.holders.find? p).or
      (if d.range.contains p then (claims.find? (·.2 = p)).map Prod.fst else none) := by
  induction claims generalizing d with
  | nil => simp [claimAll]
  | cons c cs ih =>
    have hnext : d.claimAll (c :: cs) = ((d.register c.1 c.2).toOption.getD d).claimAll cs := rfl
    rw [hnext, ih]
    rcases d.claim_cases c.1 c.2 with ⟨hrange, hfree, heq⟩ | ⟨hcause, heq⟩ <;> rw [heq]
    · rw [Table.find?_insert]
      by_cases hp : c.2 = p
      · subst hp
        simp [hfree, hrange]
      · simp [hp]
    · by_cases hp : c.2 = p
      · subst hp
        rcases hcause with hrange | hheld
        · simp [hrange]
        · obtain ⟨other, hother⟩ := Option.isSome_iff_exists.1 hheld
          simp [hother]
      · simp [hp]

/-- However the other ports are shuffled, the order of the pool is a permutation of the range. -/
theorem Sound.build {d : Draft ω} (h : d.Sound) {shuffle : List Port → List Port}
    (hshuffle : ∀ ps, (shuffle ps).Perm ps) : (d.build shuffle).Sound := by
  have hfree (p : Port) : p ∈ d.free ↔ (d.range.low ≤ p ∧ p ≤ d.range.high) ∧ p ∉ d.registered := by
    rw [free, List.mem_filter, PortRange.mem_ports, h.held]
    simp [Table.contains]
  have hperm : (d.registered ++ shuffle d.free).Perm d.range.ports := by
    refine ((hshuffle d.free).append_left d.registered).trans ?_
    refine (List.perm_ext_iff_of_nodup ?_ PortRange.nodup_ports).2 fun p => ?_
    · refine h.nodup.append (PortRange.nodup_ports.filter _) fun p hp hp' => ?_
      exact ((hfree p).1 hp').2 hp
    · rw [List.mem_append, hfree, PortRange.mem_ports]
      constructor
      · rintro (hp | ⟨hp, -⟩)
        · exact h.range p hp
        · exact hp
      · intro hp
        by_cases hmem : p ∈ d.registered
        · exact .inl hmem
        · exact .inr ⟨hp, hmem⟩
  refine ⟨hperm, ?_, fun p owner hp => ?_⟩
  · change 0 < (d.registered ++ shuffle d.free).length
    rw [hperm.length_eq, PortRange.length_ports]
    exact Nat.succ_pos _
  · refine List.mem_append_left _ ((h.held p).2 ?_)
    exact Option.isSome_iff_exists.2 ⟨owner, hp⟩

end Draft

end PortPool

end GameFleet
