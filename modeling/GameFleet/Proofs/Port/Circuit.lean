import GameFleet.Proofs.Port.Order
import GameFleet.Proofs.Table

/-!
# What a pool does when it is called

A search goes around the order of a pool from its cursor, place by place (`PortPool.along`), and an
allocation hands out the first free port that it comes to (`PortPool.IsNext`). Calls of a pool leave
the order as it was built : the ports that the draft has accepted, as they were registered, and then
the others.

`PortPool.exact_of_calls` says what a pool does after any calls : when an allocation succeeds and what
it changes, which ports a release frees and how it counts them, and that the free ports and those
that are held are all ports of the range.
-/

namespace GameFleet

namespace PortPool

variable {ω : Type}

/-! ## Around the circuit -/

/-- The port so many places along the circuit. -/
def along (pool : PortPool ω) (d : Nat) : Option Port :=
  pool.order[(pool.cursor + d) % pool.order.length]?

/-- The port is free, and all ports that come before it along the circuit are held. -/
structure IsNext (pool : PortPool ω) (d : Nat) (p : Port) : Prop where
  lt : d < pool.order.length
  along : pool.along d = some p
  free : pool.holder? p = none
  before : ∀ e < d, ∀ q, pool.along e = some q → pool.holder? q ≠ none

section

variable {pool after : PortPool ω} {owner : ω} {p : Port} {d : Nat}

theorem length_circuit (pool : PortPool ω) : pool.circuit.length = pool.order.length := by
  simpa using pool.circuit_perm.length_eq

/-- Behind the cursor comes the rest of the order, and then its beginning. -/
theorem getElem?_circuit (h : pool.cursor < pool.order.length) (hd : d < pool.order.length) :
    pool.circuit[d]? =
      (pool.along d).map (·, (pool.cursor + d) % pool.order.length) := by
  rw [circuit, along]
  have hlen : ((pool.order.drop pool.cursor).zipIdx pool.cursor).length =
      pool.order.length - pool.cursor := by simp
  rcases Nat.lt_or_ge (pool.cursor + d) pool.order.length with hlt | hge
  · rw [List.getElem?_append_left (by omega), List.getElem?_zipIdx, List.getElem?_drop,
      Nat.mod_eq_of_lt hlt]
  · have hmod : (pool.cursor + d) % pool.order.length = pool.cursor + d - pool.order.length := by
      rw [Nat.mod_eq_sub_mod hge, Nat.mod_eq_of_lt (by omega)]
    have hplace : d - (pool.order.length - pool.cursor) =
        pool.cursor + d - pool.order.length := by omega
    rw [List.getElem?_append_right (by omega), hlen, hplace, hmod, List.getElem?_zipIdx,
      List.getElem?_take_of_lt (by omega), Nat.zero_add]

theorem along_isSome (h : pool.cursor < pool.order.length) (d : Nat) : (pool.along d).isSome := by
  rw [along, List.getElem?_eq_getElem (Nat.mod_lt _ (by omega))]
  rfl

/-- A port of the order is somewhere along the circuit. -/
theorem exists_along (h : pool.cursor < pool.order.length) (hp : p ∈ pool.order) :
    ∃ d < pool.order.length, pool.along d = some p := by
  obtain ⟨place, hplace, rfl⟩ := List.mem_map.1 (pool.circuit_perm.mem_iff.2 hp)
  obtain ⟨d, hd, hget⟩ := List.getElem_of_mem hplace
  rw [length_circuit] at hd
  refine ⟨d, hd, ?_⟩
  have hsome := getElem?_circuit h hd
  rw [List.getElem?_eq_getElem (by rwa [length_circuit]), hget] at hsome
  obtain ⟨q, hq, hpair⟩ := Option.map_eq_some_iff.1 hsome.symm
  rw [hq, ← hpair]

/-- A search stops at the next port. -/
theorem search_eq_some_iff (h : pool.cursor < pool.order.length) {i : Nat} :
    pool.search = some (p, i) ↔
      ∃ d, pool.IsNext d p ∧ i = (pool.cursor + d) % pool.order.length := by
  have hat {d : Nat} (hd : d < pool.circuit.length) {r : Port} (hr : pool.along d = some r) :
      pool.circuit[d] = (r, (pool.cursor + d) % pool.order.length) := by
    have hget := getElem?_circuit h (length_circuit pool ▸ hd)
    rw [hr, List.getElem?_eq_getElem hd] at hget
    exact Option.some.inj hget
  have hheld (r : Port) : (!pool.isFree r) = true ↔ pool.holder? r ≠ none := by
    simp [isFree, Option.isSome_iff_ne_none]
  rw [search_eq_find?, List.find?_eq_some_iff_getElem]
  constructor
  · rintro ⟨hfree, d, hd, hget, hbefore⟩
    obtain ⟨r, hr⟩ := Option.isSome_iff_exists.1 (along_isSome h d)
    obtain ⟨rfl, rfl⟩ := Prod.mk.inj ((hat hd hr).symm.trans hget)
    refine ⟨d, ⟨length_circuit pool ▸ hd, hr, by simpa [isFree] using hfree, ?_⟩, rfl⟩
    intro e he q hq
    have hfound := hbefore e he
    rw [hat (by omega) hq] at hfound
    exact (hheld q).1 hfound
  · rintro ⟨d, hnext, rfl⟩
    have hd : d < pool.circuit.length := (length_circuit pool).symm ▸ hnext.lt
    refine ⟨by simp [isFree, hnext.free], d, hd, hat hd hnext.along, fun e he => ?_⟩
    obtain ⟨r, hr⟩ := Option.isSome_iff_exists.1 (along_isSome h e)
    rw [hat (by omega) hr]
    exact (hheld r).2 (hnext.before e he r hr)

/-- An allocation hands out the next port and moves the cursor behind it. -/
theorem allocate_eq_ok_iff (h : pool.cursor < pool.order.length) :
    pool.allocate owner = .ok (p, after) ↔ ∃ d, pool.IsNext d p ∧ after = { pool with
      holders := pool.holders.insert p owner
      cursor := (pool.cursor + d + 1) % pool.order.length } := by
  have hsearch := @search_eq_some_iff ω pool p h
  unfold allocate
  constructor
  · intro hallocate
    split at hallocate
    · next r i hfound =>
      obtain ⟨rfl, rfl⟩ := Prod.mk.inj (Except.ok.inj hallocate)
      obtain ⟨d, hnext, rfl⟩ := hsearch.1 hfound
      exact ⟨d, hnext, by rw [Nat.mod_add_mod]⟩
    · cases hallocate
  · rintro ⟨d, hnext, rfl⟩
    rw [hsearch.2 ⟨d, hnext, rfl⟩]
    simp only [Nat.mod_add_mod]

end

/-! ## Counts -/

theorem Sound.size_holders {pool : PortPool ω} (h : pool.Sound) :
    pool.holders.size = pool.order.countP fun p => !pool.isFree p := by
  have hheld (p : Port) : (!pool.isFree p) = true ↔ (pool.holders.find? p).isSome := by
    simp [isFree, holder?, Option.isSome_iff_ne_none]
  have hnodup : pool.order.Nodup := h.order.nodup_iff.2 PortRange.nodup_ports
  have hperm : pool.holders.keys.Perm (pool.order.filter fun p => !pool.isFree p) := by
    refine (List.perm_ext_iff_of_nodup (Table.nodup_keys _) (hnodup.filter _)).2 fun p => ?_
    rw [Table.mem_keys, List.mem_filter, hheld]
    constructor
    · intro hp
      obtain ⟨owner, howner⟩ := Option.isSome_iff_exists.1 hp
      exact ⟨h.holders p owner howner, hp⟩
    · exact And.right
  rw [List.countP_eq_length_filter, ← hperm.length_eq, Table.keys, List.length_map]
  rfl

/-- The free ports and those that are held are all ports of the range. -/
theorem Sound.available_add_size {pool : PortPool ω} (h : pool.Sound) :
    pool.available + pool.holders.size = pool.capacity := by
  have hlength := List.length_eq_countP_add_countP pool.isFree (l := pool.order)
  rw [h.order.length_eq, PortRange.length_ports] at hlength
  rw [available, h.size_holders, capacity, hlength]
  simp

/-! ## Registrations -/

namespace Draft

/-- The ports that are accepted of what is claimed : those of the range, each where it is claimed
first. -/
def accepted (range : PortRange) (claims : List (ω × Port)) : List Port :=
  ((claims.map Prod.snd).filter range.contains).eraseDups

variable {range : PortRange} {claims : List (ω × Port)} {owner : ω} {p : Port}

theorem mem_accepted :
    p ∈ accepted range claims ↔ p ∈ claims.map Prod.snd ∧ range.contains p = true := by
  rw [accepted, List.mem_eraseDups, List.mem_filter]

/-- One more port is accepted if it is in the range and was not accepted before. -/
theorem accepted_concat : accepted range (claims ++ [(owner, p)]) =
    accepted range claims ++
      if range.contains p = true ∧ p ∉ accepted range claims then [p] else [] := by
  rw [accepted, List.map_append, List.filter_append, List.eraseDups_append, ← accepted]
  cases hrange : range.contains p with
  | false => simp [hrange]
  | true =>
    have hmem : p ∈ accepted range claims ↔ p ∈ claims.map Prod.snd := by simp [mem_accepted, hrange]
    by_cases hclaimed : p ∈ claims.map Prod.snd
    · simp [hrange, hmem, hclaimed, List.removeAll]
    · simp [hrange, hmem, hclaimed, List.removeAll, List.eraseDups_cons]

/-- What a draft has registered is what was accepted. -/
theorem registered_claimAll (range : PortRange) (claims : List (ω × Port)) :
    ((new range).claimAll claims).registered = accepted range claims := by
  induction claims using List.reverseRecOn with
  | nil => rfl
  | append_singleton claims claim ih =>
    obtain ⟨owner, p⟩ := claim
    have hheld := ((sound_new range).claimAll claims).held p
    have hdraft : ((new range).claimAll claims).range = range := range_claimAll _ _
    rw [claimAll_append, accepted_concat, ← ih]
    generalize (new range).claimAll claims = d at hheld hdraft
    change ((d.register owner p).toOption.getD d).registered = _
    rcases d.claim_cases owner p with ⟨hrange, hfree, heq⟩ | ⟨hcause, heq⟩
    · have hnew : p ∉ d.registered := fun hp => by simpa [hfree] using hheld.1 hp
      rw [heq, if_pos ⟨hdraft ▸ hrange, hnew⟩]
    · rw [heq, if_neg, List.append_nil]
      rintro ⟨hrange, hnew⟩
      rcases hcause with hout | htaken
      · rw [hdraft, hrange] at hout
        cases hout
      · exact hnew (hheld.2 htaken)

/-- A registration succeeds for a port of the range that was not registered before. -/
theorem register_eq_ok_iff : (∃ d, ((new range).claimAll claims).register owner p = .ok d) ↔
    range.contains p = true ∧ p ∉ accepted range claims := by
  have hheld := ((sound_new range).claimAll claims).held p
  have hdraft : ((new range).claimAll claims).range = range := range_claimAll _ _
  rw [← registered_claimAll, hheld, register, hdraft, Table.contains]
  cases range.contains p with
  | false => simp
  | true => cases ((new range).claimAll claims).holders.find? p <;> simp

end Draft

/-! ## Calls -/

/-- What a pool is called for. -/
inductive Call (ω : Type) where
  | allocate (owner : ω)
  | release (owner : ω) (ports : List Port)

variable [DecidableEq ω]

/-- The pool after a call. An allocation that fails leaves it as it is. -/
def after (pool : PortPool ω) : Call ω → PortPool ω
  | .allocate owner =>
    match pool.allocate owner with
    | .ok (_, after) => after
    | .error _ => pool
  | .release owner ports => (pool.release owner ports).2

/-- The pool after some calls. -/
def run (pool : PortPool ω) (calls : List (Call ω)) : PortPool ω := calls.foldl after pool

theorem run_append (pool : PortPool ω) (calls more : List (Call ω)) :
    pool.run (calls ++ more) = (pool.run calls).run more :=
  List.foldl_append

theorem after_allocate {pool next : PortPool ω} {owner : ω} {p : Port}
    (h : pool.allocate owner = .ok (p, next)) : pool.after (.allocate owner) = next := by
  rw [after, h]

theorem Sound.after {pool : PortPool ω} (h : pool.Sound) (call : Call ω) :
    (pool.after call).Sound ∧ (pool.after call).range = pool.range ∧
      (pool.after call).order = pool.order := by
  cases call with
  | allocate owner =>
    cases hallocate : pool.allocate owner with
    | error cause =>
      have hsame : pool.after (.allocate owner) = pool := by rw [PortPool.after, hallocate]
      rw [hsame]
      exact ⟨h, rfl, rfl⟩
    | ok allocated =>
      rw [after_allocate hallocate]
      obtain ⟨hsound, hrange⟩ := h.allocate hallocate
      obtain ⟨-, i, heq⟩ := allocate_eq_place hallocate
      exact ⟨hsound, hrange, by rw [heq]⟩
  | release owner ports =>
    obtain ⟨hsound, hrange⟩ := h.release owner ports
    exact ⟨hsound, hrange, (pool.range_release owner ports).2.1⟩

theorem Sound.run {pool : PortPool ω} (h : pool.Sound) (calls : List (Call ω)) :
    (pool.run calls).Sound ∧ (pool.run calls).range = pool.range ∧
      (pool.run calls).order = pool.order := by
  induction calls generalizing pool with
  | nil => exact ⟨h, rfl, rfl⟩
  | cons call calls ih =>
    obtain ⟨hsound, hrange, horder⟩ := h.after call
    obtain ⟨hrun, hrange', horder'⟩ := ih hsound
    exact ⟨hrun, hrange'.trans hrange, horder'.trans horder⟩

/-- A release counts each port once that it frees. -/
theorem fst_release (pool : PortPool ω) (owner : ω) (ports : List Port) :
    (pool.release owner ports).1 =
      (ports.toFinset.filter fun p => pool.holder? p = some owner).card := by
  induction ports generalizing pool with
  | nil => rfl
  | cons p ports ih =>
    rw [release, List.toFinset_cons, Finset.filter_insert]
    split
    · next hp =>
      have herase (q : Port) : holder? { pool with holders := pool.holders.erase p } q =
          if p = q then none else pool.holder? q := Table.find?_erase _ _ _
      have hrest : (ports.toFinset.filter fun q =>
            holder? { pool with holders := pool.holders.erase p } q = some owner) =
          (ports.toFinset.filter fun q => pool.holder? q = some owner).erase p := by
        ext q
        rw [Finset.mem_erase, Finset.mem_filter, Finset.mem_filter, herase]
        by_cases hq : p = q
        · simp [hq]
        · simp [hq, Ne.symm hq]
      change (release { pool with holders := pool.holders.erase p } owner ports).1 + 1 = _
      rw [ih, hrest, ← Finset.card_erase_add_one (Finset.mem_insert_self p _),
        Finset.erase_insert_eq_erase]
    · exact ih pool

/-! ## What a pool does -/

/-- A pool of the range, whose order begins with what was registered, as it serves a call. -/
structure Exact (range : PortRange) (registered : List Port) (pool : PortPool ω) : Prop where
  range_eq : pool.range = range
  order : pool.order.Perm range.ports
  registered : registered <+: pool.order
  cursor : pool.cursor < pool.order.length
  holders : ∀ p owner, pool.holder? p = some owner → p ∈ range.ports
  succeeds : ∀ owner, (∃ p after, pool.allocate owner = .ok (p, after)) ↔
    ∃ p ∈ range.ports, pool.holder? p = none
  allocates : ∀ owner p after, pool.allocate owner = .ok (p, after) → ∃ d, pool.IsNext d p ∧
    after.range = pool.range ∧ after.order = pool.order ∧
    after.cursor = (pool.cursor + d + 1) % pool.order.length ∧
    ∀ q, after.holder? q = if q = p then some owner else pool.holder? q
  exhausts : (∀ p ∈ range.ports, pool.holder? p ≠ none) → ∀ owner,
    pool.allocate owner = .error (.exhausted range.low range.high) ∧
    pool.after (.allocate owner) = pool
  releases : ∀ owner ports,
    (pool.release owner ports).2.range = pool.range ∧
    (pool.release owner ports).2.order = pool.order ∧
    (pool.release owner ports).2.cursor = pool.cursor ∧
    ∀ q, (pool.release owner ports).2.holder? q =
      if q ∈ ports ∧ pool.holder? q = some owner then none else pool.holder? q
  freed : ∀ owner ports, (pool.release owner ports).1 =
    (ports.toFinset.filter fun p => pool.holder? p = some owner).card
  counts : pool.available + pool.holders.size = pool.capacity

/-- A sound pool serves every call as it should. -/
theorem exact_of_sound {pool : PortPool ω} (h : pool.Sound) {registered : List Port}
    (hregistered : registered <+: pool.order) : pool.Exact pool.range registered where
  range_eq := rfl
  order := h.order
  registered := hregistered
  cursor := h.cursor
  holders p owner hp := h.order.mem_iff.1 (h.holders p owner hp)
  succeeds owner := by
    constructor
    · rintro ⟨p, after, hallocate⟩
      obtain ⟨hmem, -⟩ := allocate_eq_place hallocate
      exact ⟨p, h.order.mem_iff.1 hmem, (allocate_eq_ok hallocate).1⟩
    · rintro ⟨p, hp, hfree⟩
      have hnonempty : pool.free.Nonempty := ⟨p, mem_free.2 ⟨h.order.mem_iff.2 hp, hfree⟩⟩
      obtain ⟨q, after, hallocate, -⟩ := allocate_of_free hnonempty owner
      exact ⟨q, after, hallocate⟩
  allocates owner p after hallocate := by
    obtain ⟨d, hnext, rfl⟩ := (allocate_eq_ok_iff h.cursor).1 hallocate
    refine ⟨d, hnext, rfl, rfl, rfl, fun q => ?_⟩
    simpa only [eq_comm] using (allocate_eq_ok hallocate).2 q
  exhausts hheld owner := by
    have hfull : pool.free = ∅ := Finset.eq_empty_of_forall_notMem fun p hp => by
      obtain ⟨hmem, hfree⟩ := mem_free.1 hp
      exact hheld p (h.order.mem_iff.1 hmem) hfree
    have hallocate := allocate_of_full hfull owner
    exact ⟨hallocate, by rw [after, hallocate]⟩
  releases owner ports := by
    obtain ⟨hrange, horder, hcursor⟩ := pool.range_release owner ports
    exact ⟨hrange, horder, hcursor, pool.holder?_release owner ports⟩
  freed := pool.fst_release
  counts := h.available_add_size

/-- After any calls a pool serves a call as it should, whatever was claimed for its draft, and
however the other ports were shuffled. The order begins with the claims that were accepted : those
of ports of the range that were not claimed before. -/
theorem exact_of_calls (range : PortRange) (claims : List (ω × Port))
    {shuffle : List Port → List Port} (hshuffle : ∀ ps, (shuffle ps).Perm ps)
    (calls : List (Call ω)) :
    ((((Draft.new range).claimAll claims).build shuffle).run calls).Exact range
      (Draft.accepted range claims) ∧
    ∀ owner p, (∃ d, ((Draft.new range).claimAll claims).register owner p = .ok d) ↔
      range.contains p = true ∧ p ∉ claims.map Prod.snd := by
  constructor
  · have hdraft := (Draft.sound_new range).claimAll claims
    obtain ⟨hsound, hrange, horder⟩ := (hdraft.build hshuffle).run calls
    have hregistered : Draft.accepted range claims <+:
        ((((Draft.new range).claimAll claims).build shuffle).run calls).order := by
      rw [horder, ← Draft.registered_claimAll]
      exact List.prefix_append _ _
    have hexact := exact_of_sound hsound hregistered
    rwa [hrange.trans (Draft.range_claimAll _ claims)] at hexact
  · intro owner p
    rw [Draft.register_eq_ok_iff, Draft.mem_accepted]
    constructor
    · exact fun ⟨hrange, hnew⟩ => ⟨hrange, fun hp => hnew ⟨hp, hrange⟩⟩
    · exact fun ⟨hrange, hnew⟩ => ⟨hrange, fun hp => hnew hp.1⟩

/-- Two of three claims are turned down, and then the pool is called three times. -/
theorem exact_cycled : (∀ ps : List Port, ps.reverse.Perm ps) ∧
    ((((Draft.new ⟨20000, 20002, by decide, by decide⟩).claimAll
        [("arena", 20002), ("lobby", 20002), ("lobby", 7777)]).build List.reverse).run
      [.allocate "lobby", .release "arena" [20002, 20002, 7777], .allocate "duel"]).Exact
      ⟨20000, 20002, by decide, by decide⟩ [20002] :=
  ⟨List.reverse_perm, (exact_of_calls ⟨20000, 20002, by decide, by decide⟩
    [("arena", 20002), ("lobby", 20002), ("lobby", 7777)] List.reverse_perm
    [.allocate "lobby", .release "arena" [20002, 20002, 7777], .allocate "duel"]).1⟩

end PortPool

end GameFleet
