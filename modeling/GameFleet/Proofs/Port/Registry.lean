import GameFleet.Port.Registry

/-!
# What the registry does to a pool

A call of the registry that nobody is in the middle of (`Registry.Quiet`) comes to what the
arbiter does to the pool, or to nothing if the arbiter has ended (`Registry.call_cases`).
So all that is to be known of the registry is known of pools : a port that is allocated was
free and has its owner then (`PortPool.allocate_eq_ok`), and a release frees the ports that
the owner holds and no others (`PortPool.holder?_release`).

A registry that begins with instances whose host ports are in the range and different
records each of their ports (`Registry.holder?_ofInstances`).
-/

namespace GameFleet

/-! ## Pools -/

namespace PortPool

variable {ω : Type}

theorem allocate_eq_ok {pool after : PortPool ω} {owner : ω} {p : Port}
    (h : pool.allocate owner = .ok (p, after)) :
    pool.holder? p = none ∧
      ∀ q, after.holder? q = if p = q then some owner else pool.holder? q := by
  unfold allocate at h
  split at h
  · next q i hsearch =>
    cases h
    rw [search_eq_find?] at hsearch
    have hfree := List.find?_some hsearch
    exact ⟨by simpa [isFree] using hfree, fun q => Table.find?_insert _ _ _ _⟩
  · cases h

theorem holder?_release [DecidableEq ω] (pool : PortPool ω) (owner : ω) (ps : List Port)
    (q : Port) : (pool.release owner ps).2.holder? q =
      if q ∈ ps ∧ pool.holder? q = some owner then none else pool.holder? q := by
  induction ps generalizing pool with
  | nil => simp [release]
  | cons p ps ih =>
    rw [release]
    split
    · next hp =>
      have herase (q : Port) : holder? { pool with holders := pool.holders.erase p } q =
          if p = q then none else pool.holder? q := Table.find?_erase _ _ _
      simp only [ih, herase]
      by_cases hq : p = q
      · subst hq
        simp [hp]
      · simp [hq, Ne.symm hq]
    · next hp =>
      rw [ih]
      by_cases hq : q = p
      · subst hq
        simp [hp]
      · simp [hq]

/-! ## Drafts -/

namespace Draft

/-- Notes one claim after the other, as far as no one else holds the port. -/
def claimAll (d : Draft ω) (claims : List (ω × Port)) : Draft ω :=
  claims.foldl (fun d c => (d.register c.1 c.2).toOption.getD d) d

theorem claimAll_append (d : Draft ω) (cs ds : List (ω × Port)) :
    d.claimAll (cs ++ ds) = (d.claimAll cs).claimAll ds :=
  List.foldl_append

theorem registerAll_eq_claimAll (d : Draft ω) (owner : ω) (ps : List Port) :
    d.registerAll owner ps = d.claimAll (ps.map (owner, ·)) := by
  rw [registerAll, claimAll, List.foldl_map]

/-- Claims of different ports that are free and in the range are all noted. -/
theorem find?_claimAll {d : Draft ω} {cs : List (ω × Port)} (hnd : (cs.map Prod.snd).Nodup)
    (hrange : ∀ c ∈ cs, d.range.contains c.2 = true)
    (hfree : ∀ c ∈ cs, d.holders.find? c.2 = none) :
    (∀ c ∈ cs, (d.claimAll cs).holders.find? c.2 = some c.1) ∧
      ∀ q ∉ cs.map Prod.snd, (d.claimAll cs).holders.find? q = d.holders.find? q := by
  induction cs generalizing d with
  | nil => exact ⟨fun c hc => (by cases hc), fun q _ => rfl⟩
  | cons c cs ih =>
    obtain ⟨hnot, htail⟩ := List.nodup_cons.1 hnd
    let next : Draft ω :=
      { d with holders := d.holders.insert c.2 c.1, registered := d.registered ++ [c.2] }
    have hnext : d.claimAll (c :: cs) = next.claimAll cs := by
      have hregister : d.register c.1 c.2 = .ok next := by
        simp [register, hrange c List.mem_cons_self, Table.contains, hfree c List.mem_cons_self,
          next]
      simp [claimAll, hregister, Except.toOption]
    have hfind (q : Port) :
        next.holders.find? q = if c.2 = q then some c.1 else d.holders.find? q :=
      Table.find?_insert _ _ _ _
    obtain ⟨hheld, hkeep⟩ := ih (d := next) htail
      (fun e he => hrange e (List.mem_cons_of_mem _ he)) fun e he => by
        have hne : c.2 ≠ e.2 := fun heq => hnot (heq ▸ List.mem_map_of_mem he)
        rw [hfind, if_neg hne]
        exact hfree e (List.mem_cons_of_mem _ he)
    rw [hnext]
    refine ⟨fun e he => ?_, fun q hq => ?_⟩
    · rcases List.mem_cons.1 he with rfl | he
      · rw [hkeep _ hnot, hfind, if_pos rfl]
      · exact hheld e he
    · rw [List.map_cons, List.mem_cons, not_or] at hq
      rw [hkeep q hq.2, hfind, if_neg (Ne.symm hq.1)]

end Draft

end PortPool

/-- The exposed host ports of an instance, for its key. -/
def GameServer.claims (g : GameServer) : List (Key × Port) :=
  g.exposedHostPorts.map (Resource.key g, ·)

theorem GameServer.map_snd_claims (g : GameServer) :
    g.claims.map Prod.snd = g.exposedHostPorts := by
  simp [claims, Function.comp_def]

/-! ## Registries -/

namespace Registry

/-- Nobody is in the middle of a call. -/
structure Quiet (r : Registry) : Prop where
  mailbox : r.arbiter.mailbox = []
  answers : r.arbiter.state.answers = []
  gone : r.arbiter.state.gone = []
  room : 0 < r.arbiter.capacity

theorem quiet_ofPool (pool : PortPool Key) : (ofPool pool).Quiet :=
  ⟨rfl, rfl, rfl, Nat.succ_pos _⟩

/-- A call comes to what the arbiter does, or to nothing. -/
theorem call_cases {r : Registry} (h : r.Quiet) (request : PortRequest) :
    (r.call request).2.Quiet ∧
      ((r.call request).1 = none ∧ (r.call request).2.pool = r.pool ∨
        (r.call request).1 = some (Arbiter.serve r.pool request).1 ∧
          (r.call request).2.pool = (Arbiter.serve r.pool request).2) := by
  obtain ⟨⟨⟨pool, answers, gone⟩, mailbox, capacity, stopping, reachable, ended⟩, ticket⟩ := r
  obtain ⟨hmailbox, hanswers, hgone, hroom⟩ := h
  simp only at hmailbox hanswers hgone hroom
  subst hmailbox hanswers hgone
  cases ended with
  | true =>
    have hcall : call ⟨⟨⟨pool, [], []⟩, [], capacity, stopping, reachable, true⟩, ticket⟩ request =
        (none, ⟨⟨⟨pool, [], []⟩, [], capacity, stopping, reachable, true⟩, ticket + 1⟩) := by
      simp [call, submit, Actor.send?, Actor.post?]
    rw [hcall]
    exact ⟨⟨rfl, rfl, rfl, hroom⟩, Or.inl ⟨rfl, rfl⟩⟩
  | false =>
    cases hstop : stopping || !reachable with
    | true =>
      have hcall : call ⟨⟨⟨pool, [], []⟩, [], capacity, stopping, reachable, false⟩, ticket⟩
          request =
          (none, ⟨⟨⟨pool, [], []⟩, [], capacity, stopping, reachable, true⟩, ticket + 1⟩) := by
        simp [call, submit, Actor.send?, Actor.post?, Actor.hasRoom, hroom, settle, fetch,
          Actor.settle, Actor.steps, Actor.step?, hstop, Actor.finish, Arbiter.behavior]
      rw [hcall]
      exact ⟨⟨rfl, rfl, rfl, hroom⟩, Or.inl ⟨rfl, rfl⟩⟩
    | false =>
      have hcall : call ⟨⟨⟨pool, [], []⟩, [], capacity, stopping, reachable, false⟩, ticket⟩
          request = (some (Arbiter.serve pool request).1,
          ⟨⟨⟨(Arbiter.serve pool request).2, [], []⟩, [], capacity, stopping, reachable, false⟩,
            ticket + 1⟩) := by
        simp [call, submit, Actor.send?, Actor.post?, Actor.hasRoom, hroom, settle, fetch,
          Actor.settle, Actor.steps, Actor.step?, hstop, Arbiter.behavior, Arbiter.handle,
          Verdict.ends]
      rw [hcall]
      exact ⟨⟨rfl, rfl, rfl, hroom⟩, Or.inr ⟨rfl, rfl⟩⟩

/-- An allocation fails and changes nothing, or finds a free port, which its owner holds
then. -/
theorem allocate_cases {r : Registry} (h : r.Quiet) (owner : Key) :
    (r.allocate owner).2.Quiet ∧
      ((∃ e, (r.allocate owner).1 = .error e) ∧ (r.allocate owner).2.pool = r.pool ∨
        ∃ p, (r.allocate owner).1 = .ok p ∧ r.pool.holder? p = none ∧
          ∀ q, (r.allocate owner).2.pool.holder? q =
            if p = q then some owner else r.pool.holder? q) := by
  obtain ⟨hquiet, hcases⟩ := call_cases h (.allocate owner)
  unfold allocate
  cases hcall : r.call (.allocate owner) with
  | mk answer after =>
    simp only [hcall] at hquiet hcases
    rcases hcases with ⟨rfl, hpool⟩ | ⟨rfl, hpool⟩
    · exact ⟨hquiet, Or.inl ⟨⟨_, rfl⟩, hpool⟩⟩
    · simp only [Arbiter.serve] at hpool ⊢
      cases hallocate : r.pool.allocate owner with
      | error cause =>
        simp only [hallocate] at hpool
        exact ⟨hquiet, Or.inl ⟨⟨_, rfl⟩, hpool⟩⟩
      | ok allocated =>
        obtain ⟨p, pool⟩ := allocated
        simp only [hallocate] at hpool
        obtain ⟨hfree, hholder⟩ := PortPool.allocate_eq_ok hallocate
        exact ⟨hquiet, Or.inr ⟨p, rfl, hfree, fun q => by rw [hpool, hholder]⟩⟩

/-- A release frees what the owner holds of some ports, or changes nothing. -/
theorem release_cases {r : Registry} (h : r.Quiet) (owner : Key) (ps : List Port) :
    (r.release owner ps).2.Quiet ∧
      ((r.release owner ps).2.pool = r.pool ∨
        ∀ q, (r.release owner ps).2.pool.holder? q =
          if q ∈ ps ∧ r.pool.holder? q = some owner then none else r.pool.holder? q) := by
  unfold release
  split
  · exact ⟨h, Or.inl rfl⟩
  · obtain ⟨hquiet, hcases⟩ := call_cases h (.release owner ps)
    cases hcall : r.call (.release owner ps) with
    | mk answer after =>
      simp only [hcall] at hquiet hcases
      rcases hcases with ⟨rfl, hpool⟩ | ⟨rfl, hpool⟩
      · exact ⟨hquiet, Or.inl hpool⟩
      · refine ⟨hquiet, Or.inr fun q => ?_⟩
        change after.pool.holder? q = _
        rw [hpool]
        exact PortPool.holder?_release _ _ _ _

/-! ## Beginnings -/

theorem draftOf_eq_claimAll (range : PortRange) (existing : List GameServer) :
    draftOf range existing =
      (PortPool.Draft.new range).claimAll (existing.flatMap GameServer.claims) := by
  unfold draftOf
  generalize PortPool.Draft.new range = d
  induction existing generalizing d with
  | nil => rfl
  | cons g gs ih =>
    rw [List.foldl_cons, ih, List.flatMap_cons, PortPool.Draft.claimAll_append,
      PortPool.Draft.registerAll_eq_claimAll, GameServer.claims]

/-- A registry that begins with instances is quiet. When their host ports are in the range
and different it records them all. -/
theorem holder?_ofInstances {low high : Port} {existing : List GameServer}
    {shuffle : List Port → List Port} {r : Registry}
    (h : ofInstances low high existing shuffle = .ok r)
    (hnd : (existing.flatMap GameServer.exposedHostPorts).Nodup)
    (hrange : ∀ g ∈ existing, ∀ p ∈ g.exposedHostPorts, low ≤ p ∧ p ≤ high) :
    r.Quiet ∧ ∀ c ∈ existing.flatMap GameServer.claims, r.pool.holder? c.2 = some c.1 := by
  unfold ofInstances at h
  split at h
  · next range hof =>
    cases h
    refine ⟨quiet_ofPool _, ?_⟩
    have hports : (existing.flatMap GameServer.claims).map Prod.snd =
        existing.flatMap GameServer.exposedHostPorts := by
      simp [List.map_flatMap, GameServer.map_snd_claims]
    have hbounds : range.low = low ∧ range.high = high := by
      unfold PortRange.of at hof
      split at hof
      · cases hof
        exact ⟨rfl, rfl⟩
      · cases hof
    have hin : ∀ c ∈ existing.flatMap GameServer.claims, range.contains c.2 = true := by
      intro c hc
      obtain ⟨g, hg, hc⟩ := List.mem_flatMap.1 hc
      obtain ⟨p, hp, rfl⟩ := List.mem_map.1 hc
      simpa [PortRange.contains, hbounds] using hrange g hg p hp
    intro c hc
    change (draftOf range existing).holders.find? c.2 = some c.1
    rw [draftOf_eq_claimAll]
    exact (PortPool.Draft.find?_claimAll (hports ▸ hnd) hin fun c _ => rfl).1 c hc
  · cases h

end Registry

end GameFleet
