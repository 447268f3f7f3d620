import GameFleet.Proofs.Collection.Membership
import GameFleet.Proofs.Port.Desk
import GameFleet.Proofs.Port.Manor
import GameFleet.Proofs.Port.Order

/-!
# Registries that are rebuilt

A registry that is built from a list of instances has a port for the first instance of the list that
exposes it, if it is in the range (`Registry.holder?_rebuilt`). Nobody else gets such a port before
its holder gives it back, and allocations hand out all other ports of the range, each once, before
one fails (`Registry.allocateEach_eq`).

So a fleet that is started again goes on where it was : when the pool and the stored instances agree,
the registry that is built from the stored instances has the same holder for every port
(`Registry.rebuilds_ofInstances`).
-/

namespace GameFleet

/-! ## Sound registries -/

namespace Arbiter

/-- What the arbiter does keeps a pool sound. -/
theorem sound_serve {pool : PortPool Key} (h : pool.Sound) (request : PortRequest) :
    (serve pool request).2.Sound ∧ (serve pool request).2.range = pool.range := by
  cases request with
  | allocate owner =>
    simp only [serve]
    cases hallocate : pool.allocate owner with
    | error cause => exact ⟨h, rfl⟩
    | ok allocated => exact h.allocate hallocate
  | release owner ports => exact h.release owner ports
  | available => exact ⟨h, rfl⟩

end Arbiter

namespace Registry

/-- Nobody is in the middle of a call, and the pool is sound and has this range. -/
structure Within (range : PortRange) (r : Registry) : Prop where
  quiet : r.Quiet
  sound : r.pool.Sound
  range : r.pool.range = range

variable {range : PortRange} {r : Registry}

theorem Within.call (h : r.Within range) (request : PortRequest) :
    (r.call request).2.Within range := by
  obtain ⟨hquiet, hcases⟩ := call_cases h.quiet request
  rcases hcases with ⟨-, hpool⟩ | ⟨-, hpool⟩
  · exact ⟨hquiet, hpool ▸ h.sound, hpool ▸ h.range⟩
  · obtain ⟨hsound, hrange⟩ := Arbiter.sound_serve h.sound request
    exact ⟨hquiet, hpool ▸ hsound, by rw [hpool, hrange, h.range]⟩

theorem snd_allocate (r : Registry) (owner : Key) :
    (r.allocate owner).2 = (r.call (.allocate owner)).2 := by
  unfold allocate
  split <;> simp_all

theorem snd_release (r : Registry) (owner : Key) (ports : List Port) :
    (r.release owner ports).2 = r ∨
      (r.release owner ports).2 = (r.call (.release owner ports)).2 := by
  unfold release
  split
  · exact .inl rfl
  · refine .inr ?_
    split <;> simp_all

/-! ## What is rebuilt -/

/-- The first of some instances that exposes a port. -/
def firstClaimant? (existing : List GameServer) (p : Port) : Option Key :=
  (existing.find? fun g => p ∈ g.exposedHostPorts).map Resource.key

theorem find?_claims (existing : List GameServer) (p : Port) :
    ((existing.flatMap GameServer.claims).find? (·.2 = p)).map Prod.fst =
      firstClaimant? existing p := by
  have hone (g : GameServer) : (g.claims.find? (·.2 = p)).map Prod.fst =
      if p ∈ g.exposedHostPorts then some (Resource.key g) else none := by
    unfold GameServer.claims
    induction g.exposedHostPorts with
    | nil => rfl
    | cons q ports ih =>
      rw [List.map_cons, List.find?_cons]
      by_cases hq : q = p
      · simp [hq]
      · simp only [hq, decide_false]
        rw [ih]
        simp [Ne.symm hq]
  induction existing with
  | nil => rfl
  | cons g gs ih =>
    rw [List.flatMap_cons, List.find?_append, firstClaimant?, List.find?_cons]
    have hg := hone g
    by_cases hp : p ∈ g.exposedHostPorts
    · rw [if_pos hp] at hg
      obtain ⟨c, hc, hkey⟩ := Option.map_eq_some_iff.1 hg
      simp [hc, hp, hkey]
    · rw [if_neg hp, Option.map_eq_none_iff] at hg
      simp only [hg, Option.none_or, hp, decide_false]
      exact ih

variable {low high : Port} {existing : List GameServer} {shuffle : List Port → List Port}

/-- A registry is built if the range has a port, and is within the range. -/
theorem within_rebuilt (hlow : 0 < low) (hle : low ≤ high)
    (hshuffle : ∀ ps, (shuffle ps).Perm ps) (existing : List GameServer) :
    ∃ r, ofInstances low high existing shuffle = .ok r ∧ r.Within ⟨low, high, hlow, hle⟩ ∧
      r.Serving ∧ r = .ofPool r.pool := by
  have hrange : PortRange.of low high = .ok ⟨low, high, hlow, hle⟩ := dif_pos ⟨hlow, hle⟩
  refine ⟨_, by rw [ofInstances, hrange], ⟨quiet_ofPool _, ?_, ?_⟩, serving_ofPool _, rfl⟩
  · change ((draftOf _ existing).build shuffle).Sound
    rw [draftOf_eq_claimAll]
    exact ((PortPool.Draft.sound_new _).claimAll _).build hshuffle
  · change (draftOf _ existing).range = _
    rw [draftOf_eq_claimAll, PortPool.Draft.range_claimAll]
    rfl

/-- The registry has the ports of the range for the first instances that expose them. -/
theorem holder?_rebuilt (h : ofInstances low high existing shuffle = .ok r) (p : Port) :
    r.pool.holder? p = if low ≤ p ∧ p ≤ high then firstClaimant? existing p else none := by
  unfold ofInstances PortRange.of at h
  split at h
  · next range hof =>
    cases h
    split at hof
    · cases hof
      change (draftOf _ existing).holders.find? p = _
      rw [draftOf_eq_claimAll, PortPool.Draft.find?_claimAll_first, find?_claims]
      simp only [PortPool.Draft.new, Table.find?_empty, Option.none_or, PortRange.contains_iff]
    · cases hof
  · cases h

/-! ## Allocations in a row -/

/-- Allocations one after the other. -/
def allocateEach (r : Registry) : List Key → List (Except RegistryError Port) × Registry
  | [] => ([], r)
  | owner :: owners =>
    let (result, after) := r.allocate owner
    let (results, last) := after.allocateEach owners
    (result :: results, last)

/-- An allocation takes a free port if there is one. -/
theorem allocate_of_nonempty (hserving : r.Serving) (hwithin : r.Within range)
    (hfree : r.pool.free.Nonempty) (owner : Key) :
    ∃ p after, r.allocate owner = (.ok p, after) ∧ after.Serving ∧ after.Within range ∧
      p ∈ r.pool.free ∧ after.pool.free = r.pool.free.erase p := by
  obtain ⟨after, hcall, hafter, hpool⟩ := hserving.call (.allocate owner)
  obtain ⟨p, pool, hallocate, hp, hpoolFree⟩ := PortPool.allocate_of_free hfree owner
  have hwithin' := hwithin.call (.allocate owner)
  simp only [Arbiter.serve, hallocate] at hcall hpool
  rw [hcall] at hwithin'
  refine ⟨p, after, ?_, hafter, hwithin', hp, hpool ▸ hpoolFree⟩
  simp only [allocate, hcall]
  rfl

/-- Without a free port an allocation fails, and there is none afterwards. -/
theorem allocate_of_empty (hserving : r.Serving) (hwithin : r.Within range)
    (hfree : r.pool.free = ∅) (owner : Key) :
    ∃ after, r.allocate owner = (.error (.pool (.exhausted range.low range.high)), after) ∧
      after.Serving ∧ after.Within range ∧ after.pool.free = ∅ := by
  obtain ⟨after, hcall, hafter, hpool⟩ := hserving.call (.allocate owner)
  have hwithin' := hwithin.call (.allocate owner)
  simp only [Arbiter.serve, PortPool.allocate_of_full hfree, hwithin.range] at hcall hpool
  rw [hcall] at hwithin'
  refine ⟨after, ?_, hafter, hwithin', hpool ▸ hfree⟩
  simp only [allocate, hcall]
  rfl

/-- Allocations hand out the free ports, each once, and fail when there are no more. -/
theorem allocateEach_eq (hserving : r.Serving) (hwithin : r.Within range) (owners : List Key) :
    ∃ (ports : List Port) (failed : Nat), (r.allocateEach owners).1 =
        ports.map .ok ++ List.replicate failed (.error (.pool (.exhausted range.low range.high))) ∧
      ports.Nodup ∧ (∀ p ∈ ports, p ∈ r.pool.free) ∧ (failed = 0 ∨ ∀ p ∈ r.pool.free, p ∈ ports) := by
  induction owners generalizing r with
  | nil => exact ⟨[], 0, rfl, List.nodup_nil, nofun, .inl rfl⟩
  | cons owner owners ih =>
    rcases r.pool.free.eq_empty_or_nonempty with hfree | hfree
    · obtain ⟨after, hallocate, hafter, hwithin', hempty⟩ :=
        allocate_of_empty hserving hwithin hfree owner
      obtain ⟨ports, failed, hresults, -, hports, -⟩ := ih hafter hwithin'
      obtain rfl : ports = [] := List.eq_nil_iff_forall_not_mem.2 fun p hp => by
        have hmem := hports p hp
        rw [hempty] at hmem
        cases hmem
      refine ⟨[], failed + 1, ?_, List.nodup_nil, nofun, .inr fun p hp => ?_⟩
      · simp only [allocateEach, hallocate, hresults]
        rfl
      · rw [hfree] at hp
        cases hp
    · obtain ⟨p, after, hallocate, hafter, hwithin', hp, herase⟩ :=
        allocate_of_nonempty hserving hwithin hfree owner
      obtain ⟨ports, failed, hresults, hnodup, hports, hall⟩ := ih hafter hwithin'
      rw [herase] at hports hall
      refine ⟨p :: ports, failed, ?_, ?_, fun q hq => ?_, ?_⟩
      · simp only [allocateEach, hallocate, hresults]
        rfl
      · exact List.nodup_cons.2 ⟨fun hmem => Finset.notMem_erase p _ (hports p hmem), hnodup⟩
      · rcases List.mem_cons.1 hq with rfl | hq
        · exact hp
        · exact Finset.mem_of_mem_erase (hports q hq)
      · refine hall.imp_right fun hall q hq => ?_
        by_cases heq : q = p
        · exact heq ▸ List.mem_cons_self
        · exact List.mem_cons_of_mem _ (hall q (Finset.mem_erase.2 ⟨heq, hq⟩))

end Registry

/-! ## Registries that live -/

namespace World

variable {w v : World}

/-- What is done to the registry. -/
theorem Serves.registry_cases {request : Request} {answer : request.Answer}
    (hs : w.Serves request answer v) : v.registry = w.registry ∨
      ∃ request, v.registry = (w.registry.call request).2 := by
  cases hs with
  | @allocate owner => exact .inr ⟨.allocate owner, w.registry.snd_allocate owner⟩
  | @release owner ports => exact (w.registry.snd_release owner ports).imp_right fun h => ⟨_, h⟩
  | _ => exact .inl rfl

end World

namespace Manor

variable {lists : Mirror GameServer → Prop} {h h' : Manor} {range : PortRange}

/-- The logs are the logs of the stores, and the registry is sound. -/
structure Upheld (range : PortRange) (h : Manor) : Prop where
  recorded : h.estate.world.Recorded
  registry : h.estate.world.registry.Within range

theorem Upheld.step (hupheld : h.Upheld range) (hstep : Step lists h h') : h'.Upheld range := by
  cases hstep with
  | serve before after request next answer w htasks hserves hrefused =>
    refine ⟨hserves.recorded hupheld.recorded, ?_⟩
    rcases hserves.registry_cases with hsame | ⟨request, hcall⟩
    · exact hsame.symm ▸ hupheld.registry
    · exact hcall.symm ▸ hupheld.registry.call request
  | _ => exact ⟨hupheld.recorded, hupheld.registry⟩

theorem Upheld.run (hupheld : h.Upheld range) (hrun : Run lists h h') : h'.Upheld range := by
  induction hrun with
  | refl => exact hupheld
  | tail _ hstep ih => exact ih.step hstep

end Manor

/-- When the ports that are taken are those that the stored instances expose, an instance is the
first that exposes a port if it holds the port. -/
theorem Registry.firstClaimant?_of_exact {w : World} (hw : w.Recorded) (hexact : Manor.Exact w)
    {existing : List GameServer}
    (hexisting : ∀ g, g ∈ existing ↔ (w.stores .gameServer).get? (Resource.key g) = some g)
    (p : Port) : firstClaimant? existing p = w.registry.pool.holder? p := by
  have hholds {g : GameServer} (hg : g ∈ existing) (hp : p ∈ g.exposedHostPorts) :
      w.registry.pool.holder? p = some (Resource.key g) :=
    (hexact p _).2 ⟨g, (hexisting g).1 hg, hp⟩
  cases hfind : existing.find? fun g => p ∈ g.exposedHostPorts with
  | some g =>
    have hp : p ∈ g.exposedHostPorts := by simpa using List.find?_some hfind
    rw [firstClaimant?, hfind, hholds (List.mem_of_find?_eq_some hfind) hp]
    rfl
  | none =>
    rw [firstClaimant?, hfind]
    cases hholder : w.registry.pool.holder? p with
    | none => rfl
    | some k =>
      obtain ⟨g, hg, hp⟩ := (hexact p k).1 hholder
      obtain rfl := (hw .gameServer).sound.key_eq hg
      have hnot := List.find?_eq_none.1 hfind g ((hexisting g).2 hg)
      exact absurd (decide_eq_true hp) hnot

/-! ## What a registry that is rebuilt can be relied on for -/

namespace Registry

structure Rebuilds (low high : Port) (existing : List GameServer) (r : Registry) : Prop where
  /-- A port of the range is held by the first instance that exposes it. -/
  holders : ∀ p k, r.pool.holder? p = some k ↔
    (low ≤ p ∧ p ≤ high) ∧ firstClaimant? existing p = some k
  /-- However calls fall among each other, a port that an instance exposes is delivered to nobody
  before its holder gives it back. -/
  kept : ∀ d, Desk.Run ⟨r, [], []⟩ d → ∀ p k, r.pool.holder? p = some k →
    (∀ s ∈ d.served, ¬s.Frees k p) → d.registry.pool.holder? p = some k ∧
      ∀ s ∈ d.served, ∀ owner, ¬s.Gives owner p
  /-- Allocations hand out the ports of the range that no instance exposes, each once, and fail when
  there are no more. -/
  others : ∀ owners, ∃ (ports : List Port) (failed : Nat), (r.allocateEach owners).1 =
      ports.map .ok ++ List.replicate failed (.error (.pool (.exhausted low high))) ∧
    ports.Nodup ∧
    (∀ p ∈ ports, (low ≤ p ∧ p ≤ high) ∧ ∀ g ∈ existing, p ∉ g.exposedHostPorts) ∧
    (failed = 0 ∨ ∀ p, low ≤ p → p ≤ high → (∀ g ∈ existing, p ∉ g.exposedHostPorts) → p ∈ ports)
  /-- When nothing is left to do in a fleet whose registry was built for this range, and its pool
  agrees with its instances, which are the existing ones, they hold the same ports. -/
  live : ∀ lists start h, Manor.Start start →
    (∃ earlier shuffle, (∀ ps, (shuffle ps).Perm ps) ∧
      ofInstances low high earlier shuffle = .ok start.estate.world.registry) →
    Manor.Run lists start h → h.Quiescent → Manor.Exact h.estate.world →
    existing.Perm h.estate.instances →
      ∀ p, r.pool.holder? p = h.estate.world.registry.pool.holder? p

variable {low high : Port} {existing : List GameServer} {shuffle : List Port → List Port}

theorem firstClaimant?_eq_none_iff {p : Port} :
    firstClaimant? existing p = none ↔ ∀ g ∈ existing, p ∉ g.exposedHostPorts := by
  rw [firstClaimant?, Option.map_eq_none_iff, List.find?_eq_none]
  simp

/-- A registry is built from any instances, and can be relied on for what they hold. -/
theorem rebuilds_ofInstances (hlow : 0 < low) (hle : low ≤ high)
    (hshuffle : ∀ ps, (shuffle ps).Perm ps) (existing : List GameServer) :
    ∃ r, ofInstances low high existing shuffle = .ok r ∧ r.Rebuilds low high existing := by
  obtain ⟨r, hbuilt, hwithin, hserving, heq⟩ := within_rebuilt hlow hle hshuffle existing
  have hholder := holder?_rebuilt hbuilt
  have hfree (p : Port) : p ∈ r.pool.free ↔
      (low ≤ p ∧ p ≤ high) ∧ ∀ g ∈ existing, p ∉ g.exposedHostPorts := by
    rw [hwithin.sound.mem_free, hwithin.range, hholder]
    refine and_congr_right fun hp => ?_
    rw [if_pos hp, firstClaimant?_eq_none_iff]
  refine ⟨r, hbuilt, ?_⟩
  constructor
  case holders =>
    intro p k
    rw [hholder, Option.ite_none_right_eq_some]
  case kept =>
    intro d hrun p k hp hfrees
    exact Desk.held_of_start hrun rfl hp hfrees
  case others =>
    intro owners
    obtain ⟨ports, failed, hresults, hnodup, hports, hall⟩ :=
      allocateEach_eq hserving hwithin owners
    refine ⟨ports, failed, hresults, hnodup, fun p hp => (hfree p).1 (hports p hp), ?_⟩
    exact hall.imp_right fun hall p hplow hphigh hp => hall p ((hfree p).2 ⟨⟨hplow, hphigh⟩, hp⟩)
  case live =>
    rintro lists start h hstart ⟨earlier, shuffle', hshuffle', hearlier⟩ hrun - hexact hperm p
    obtain ⟨s, hs, hwithin', -⟩ := within_rebuilt hlow hle hshuffle' earlier
    obtain rfl : start.estate.world.registry = s := Except.ok.inj (hearlier.symm.trans hs)
    obtain ⟨hrecorded, hupheld⟩ := Manor.Upheld.run ⟨hstart.recorded, hwithin'⟩ hrun
    have hmem (g : GameServer) : g ∈ existing ↔
        (h.estate.world.stores .gameServer).get? (Resource.key g) = some g :=
      hperm.mem_iff.trans (Store.mem_values (hrecorded .gameServer).sound)
    rw [hholder, firstClaimant?_of_exact hrecorded hexact hmem]
    split
    · rfl
    · next hout =>
      -- The live registry holds ports of the range only.
      cases hlive : h.estate.world.registry.pool.holder? p with
      | none => rfl
      | some k =>
        have hin := hupheld.sound.mem_order.1 (hupheld.sound.holders p k hlive)
        rw [hupheld.range] at hin
        exact absurd hin hout

end Registry

/-! ## A restart -/

namespace Manor

/-- The manor when the instance has a host port and the informer has read that. -/
def restarted : Manor := assigned.informed assigned.mirror.read
  (assigned.mirror.shelf.informer.follow assigned.mirror.shelf.feed (.ok [])).1

theorem exact_restarted : Exact restarted.estate.world := by
  have hholder (p : Port) : restarted.estate.world.registry.pool.holder? p =
      if 20000 = p then some newcomerKey else none := Table.find?_insert _ _ _ _
  have hget (k : Key) : (restarted.estate.world.stores .gameServer).get? k =
      if newcomerKey = k then some ((Store.commit .empty (.added newcomer)).successor newcomer
        (newcomer.withFilled newcomer.awaitsHostPort [20000])) else none := by
    change ((Store.commit .empty (.added newcomer)).commit (.updated newcomer _)).get? k = _
    rw [Store.get?_commit, Store.get?_commit]
    split
    · next hk => exact (if_pos hk).symm
    · next hk => exact (if_neg hk).trans (if_neg hk).symm
  intro p k
  rw [hholder]
  constructor
  · intro hp
    obtain ⟨rfl, hk⟩ := Option.ite_none_right_eq_some.1 hp
    obtain rfl := Option.some.inj hk
    exact ⟨_, (hget newcomerKey).trans (if_pos rfl), by decide +kernel⟩
  · rintro ⟨g, hg, hp⟩
    rw [hget, Option.ite_none_right_eq_some] at hg
    obtain ⟨rfl, hg⟩ := hg
    obtain rfl := Option.some.inj hg
    have hports : p ∈ [(20000 : Port)] := hp
    rw [if_pos (List.mem_singleton.1 hports).symm]

end Manor

/-- A fleet is started again when a pass has given a host port to its one instance. -/
theorem Registry.rebuilds_restarted :
    ∃ r, ofInstances 20000 20001 Manor.restarted.estate.instances List.reverse = .ok r ∧
      r.Rebuilds 20000 20001 Manor.restarted.estate.instances ∧
      r.pool.holder? = Manor.restarted.estate.world.registry.pool.holder? := by
  obtain ⟨r, hbuilt, hrebuilds⟩ := rebuilds_ofInstances (show 0 < (20000 : Port) by decide)
    (show (20000 : Port) ≤ 20001 by decide) List.reverse_perm Manor.restarted.estate.instances
  refine ⟨r, hbuilt, hrebuilds, funext ?_⟩
  refine hrebuilds.live (fun _ => True) Manor.landed Manor.restarted Manor.start_landed
    ⟨[], id, fun _ => .refl _, rfl⟩ ?_ ⟨rfl, rfl, 2, rfl, by decide +kernel⟩
    Manor.exact_restarted (.refl _)
  exact (Manor.run_assigned _).tail (.inform _ _ _ (.read _ rfl rfl) fun _ => trivial)

end GameFleet
