import GameFleet.Proofs.Port.Circuit

/-!
# Ports that were given back come around last

Every place that the cursor has gone over had its port handed out then, or held
(`PortPool.exists_travel`), and between two allocations of a port the cursor goes once around the
circuit at least (`PortPool.length_le_of_mod_eq`). So every other port is handed out meanwhile, or it
is held when an allocation passes over it (`PortPool.swept_of_reuse`) : no port is free all the while.
-/

namespace GameFleet

namespace PortPool

variable {ω : Type}

/-! ## Rounds -/

/-- To be back at a place takes a whole round. -/
theorem length_le_of_mod_eq {n place way : Nat} (hplace : place < n) (hway : 0 < way)
    (h : (place + way) % n = place) : n ≤ way := by
  by_contra hlt
  rcases Nat.lt_or_ge (place + way) n with hstay | hwrap
  · rw [Nat.mod_eq_of_lt hstay] at h
    omega
  · rw [Nat.mod_eq_sub_mod hwrap, Nat.mod_eq_of_lt (by omega)] at h
    omega

/-- A port has one place in the order, and the cursor is behind it each time that it was handed
out. -/
theorem Sound.cursor_of_reuse {pool later first second : PortPool ω} {owner other : ω} {p : Port}
    (h : pool.Sound) (hlater : later.Sound) (horder : later.order = pool.order)
    (hfirst : pool.allocate owner = .ok (p, first))
    (hsecond : later.allocate other = .ok (p, second)) : first.cursor = second.cursor := by
  have hnodup : pool.order.Nodup := h.order.nodup_iff.2 PortRange.nodup_ports
  have hpos : 0 < pool.order.length := Nat.zero_lt_of_lt h.cursor
  obtain ⟨d, hd, rfl⟩ := (allocate_eq_ok_iff h.cursor).1 hfirst
  obtain ⟨e, he, rfl⟩ := (allocate_eq_ok_iff hlater.cursor).1 hsecond
  have hat := hd.along.trans he.along.symm
  rw [along, along, horder] at hat
  have hplace := (List.getElem?_inj (Nat.mod_lt _ hpos) hnodup).1 hat
  change (pool.cursor + d + 1) % _ = (later.cursor + e + 1) % _
  rw [horder, ← Nat.mod_add_mod, hplace, Nat.mod_add_mod]

/-! ## What a call comes to -/

/-- The call is an allocation and hands out the port. -/
def HandsOut (q : Port) (pool : PortPool ω) (call : Call ω) : Prop :=
  ∃ owner after, call = .allocate owner ∧ pool.allocate owner = .ok (q, after)

/-- The call is an allocation whose search comes to the port and goes on, as it is held like all
ports before it. -/
def PassesOver (q : Port) (pool : PortPool ω) (call : Call ω) : Prop :=
  (∃ owner, call = .allocate owner) ∧ ∃ d < pool.order.length, pool.along d = some q ∧
    ∀ e ≤ d, ∀ r, pool.along e = some r → pool.holder? r ≠ none

theorem PassesOver.held {q : Port} {pool : PortPool ω} {call : Call ω}
    (h : PassesOver q pool call) : pool.holder? q ≠ none := by
  obtain ⟨-, d, -, hd, hheld⟩ := h
  exact hheld d le_rfl q hd

/-- An allocation passes over all ports before the one that it hands out. -/
theorem IsNext.passesOver {pool : PortPool ω} {d e : Nat} {p q : Port} (h : pool.IsNext d p)
    (he : e < d) (hq : pool.along e = some q) (owner : ω) :
    PassesOver q pool (.allocate owner) :=
  ⟨⟨owner, rfl⟩, e, he.trans h.lt, hq, fun f hf => h.before f (by omega)⟩

variable [DecidableEq ω]

theorem HandsOut.held {q : Port} {pool : PortPool ω} {call : Call ω} (h : HandsOut q pool call) :
    (pool.after call).holder? q ≠ none := by
  obtain ⟨owner, after, rfl, hallocate⟩ := h
  rw [after_allocate hallocate, (allocate_eq_ok hallocate).2, if_pos rfl]
  simp

/-- One of the calls is such, of the pool as the calls before it have left it. -/
def Occurs (P : PortPool ω → Call ω → Prop) (pool : PortPool ω) (calls : List (Call ω)) : Prop :=
  ∃ before call later, calls = before ++ call :: later ∧ P (pool.run before) call

/-- Before one of the calls or after the last one the port is held. -/
def GetsHeld (q : Port) (pool : PortPool ω) (calls : List (Call ω)) : Prop :=
  ∃ before later, calls = before ++ later ∧ (pool.run before).holder? q ≠ none

section

variable {P : PortPool ω → Call ω → Prop} {pool : PortPool ω} {call : Call ω}
  {calls : List (Call ω)} {q : Port}

theorem Occurs.head (h : P pool call) : Occurs P pool (call :: calls) :=
  ⟨[], call, calls, rfl, h⟩

theorem Occurs.tail (h : Occurs P (pool.after call) calls) : Occurs P pool (call :: calls) := by
  obtain ⟨before, found, later, rfl, hfound⟩ := h
  exact ⟨call :: before, found, later, rfl, hfound⟩

theorem Occurs.concat (h : Occurs P pool calls) : Occurs P pool (calls ++ [call]) := by
  obtain ⟨before, found, later, rfl, hfound⟩ := h
  exact ⟨before, found, later ++ [call], by simp, hfound⟩

theorem Occurs.last (h : P (pool.run calls) call) : Occurs P pool (calls ++ [call]) :=
  ⟨calls, call, [], rfl, h⟩

theorem getsHeld_of_handsOut (h : Occurs (HandsOut q) pool calls) : GetsHeld q pool calls := by
  obtain ⟨before, call, later, rfl, hhands⟩ := h
  refine ⟨before ++ [call], later, by simp, ?_⟩
  rw [run_append]
  exact hhands.held

theorem getsHeld_of_passesOver (h : Occurs (PassesOver q) pool calls) : GetsHeld q pool calls := by
  obtain ⟨before, call, later, rfl, hpasses⟩ := h
  exact ⟨before, call :: later, rfl, hpasses.held⟩

end

/-! ## The way of the cursor -/

/-- A call moves the cursor along the circuit, over ports that are held, and over one that it hands
out. -/
theorem Sound.exists_step {pool : PortPool ω} (h : pool.Sound) (call : Call ω) :
    ∃ way, (pool.after call).cursor = (pool.cursor + way) % pool.order.length ∧
      ∀ d < way, ∀ q, pool.along d = some q → HandsOut q pool call ∨ PassesOver q pool call := by
  have hstay : (pool.cursor + 0) % pool.order.length = pool.cursor := Nat.mod_eq_of_lt h.cursor
  cases call with
  | release owner ports =>
    exact ⟨0, (pool.range_release owner ports).2.2.trans hstay.symm, nofun⟩
  | allocate owner =>
    cases hallocate : pool.allocate owner with
    | error cause => exact ⟨0, by rw [PortPool.after, hallocate, hstay], nofun⟩
    | ok allocated =>
      obtain ⟨p, next⟩ := allocated
      obtain ⟨d, hnext, rfl⟩ := (allocate_eq_ok_iff h.cursor).1 hallocate
      refine ⟨d + 1, by rw [after_allocate hallocate, Nat.add_assoc], fun e he q hq => ?_⟩
      rcases Nat.lt_succ_iff_lt_or_eq.1 he with hlt | rfl
      · exact .inr (hnext.passesOver hlt hq owner)
      · obtain rfl := Option.some.inj (hnext.along.symm.trans hq)
        exact .inl ⟨owner, _, rfl, hallocate⟩

/-- Where the cursor has gone, each port was handed out or passed over. The induction is on the
calls : the way after the first one begins where that has left the cursor. -/
theorem Sound.exists_travel {pool : PortPool ω} (h : pool.Sound) (calls : List (Call ω)) :
    ∃ way, (pool.run calls).cursor = (pool.cursor + way) % pool.order.length ∧
      ∀ d < way, ∀ q, pool.along d = some q →
        Occurs (HandsOut q) pool calls ∨ Occurs (PassesOver q) pool calls := by
  induction calls generalizing pool with
  | nil => exact ⟨0, (Nat.mod_eq_of_lt h.cursor).symm, nofun⟩
  | cons call calls ih =>
    obtain ⟨first, hfirst, hstep⟩ := h.exists_step call
    obtain ⟨hsound, -, horder⟩ := h.after call
    obtain ⟨rest, hrest, htravel⟩ := ih hsound
    refine ⟨first + rest, ?_, fun d hd q hq => ?_⟩
    · change ((pool.after call).run calls).cursor = _
      rw [hrest, horder, hfirst, Nat.mod_add_mod, Nat.add_assoc]
    · rcases Nat.lt_or_ge d first with hlt | hge
      · exact (hstep d hlt q hq).imp .head .head
      · have halong : (pool.after call).along (d - first) = some q := by
          rw [along, horder, hfirst, Nat.mod_add_mod, Nat.add_assoc, Nat.add_sub_cancel' hge]
          exact hq
        exact (htravel (d - first) (by omega) q halong).imp .tail .tail

/-- A sound pool goes once around its circuit before it hands out a port again. -/
theorem Sound.sweep {pool first second : PortPool ω} {owner other : ω} {p q : Port}
    {between : List (Call ω)} (h : pool.Sound) (hfirst : pool.allocate owner = .ok (p, first))
    (hsecond : (first.run between).allocate other = .ok (p, second)) (hq : q ∈ pool.order)
    (hne : q ≠ p) : Occurs (HandsOut q) first between ∨ Occurs (PassesOver q) first between ∨
      PassesOver q (first.run between) (.allocate other) := by
  have hsound : first.Sound := (h.allocate hfirst).1
  have horder : first.order = pool.order := after_allocate hfirst ▸ (h.after (.allocate owner)).2.2
  obtain ⟨hrun, -, hrunOrder⟩ := hsound.run between
  obtain ⟨way, hway, htravel⟩ := hsound.exists_travel between
  have hback := h.cursor_of_reuse hrun (hrunOrder.trans horder) hfirst hsecond
  obtain ⟨d, hnext, rfl⟩ := (allocate_eq_ok_iff hrun.cursor).1 hsecond
  have hround : (first.cursor + (way + d + 1)) % first.order.length = first.cursor := by
    conv_rhs => rw [hback]
    rw [hway, hrunOrder, Nat.add_assoc, Nat.add_assoc, Nat.mod_add_mod, Nat.add_assoc]
  have hlength := length_le_of_mod_eq hsound.cursor (Nat.succ_pos _) hround
  have halong (e : Nat) : (first.run between).along e = first.along (way + e) := by
    rw [along, along, hway, hrunOrder, Nat.mod_add_mod, Nat.add_assoc]
  obtain ⟨e, he, hat⟩ := exists_along hsound.cursor (horder.symm ▸ hq)
  rcases Nat.lt_or_ge e way with hlt | hge
  · exact (htravel e hlt q hat).imp_right .inl
  · obtain ⟨f, rfl⟩ := Nat.exists_eq_add_of_le hge
    have hf : f ≠ d := fun hf => by
      rw [hf, ← halong, hnext.along] at hat
      exact hne (Option.some.inj hat).symm
    exact .inr (.inr (hnext.passesOver (by omega) ((halong f).trans hat) other))

/-- Between two allocations of a port every other port of the range is handed out, or it is held when
an allocation, the second one at the latest, passes over it. So none is free from the first
allocation to the second. -/
theorem swept_of_reuse (range : PortRange) (claims : List (ω × Port))
    {shuffle : List Port → List Port} (hshuffle : ∀ ps, (shuffle ps).Perm ps)
    (calls between : List (Call ω)) {pool first second : PortPool ω} {owner other : ω} {p : Port}
    (hpool : pool = (((Draft.new range).claimAll claims).build shuffle).run calls)
    (hfirst : pool.allocate owner = .ok (p, first))
    (hsecond : (first.run between).allocate other = .ok (p, second)) :
    ∀ q ∈ range.ports, q ≠ p →
      (Occurs (HandsOut q) first between ∨
        Occurs (PassesOver q) first (between ++ [.allocate other])) ∧
      GetsHeld q first between := by
  intro q hq hne
  have hdraft := (Draft.sound_new range).claimAll claims
  obtain ⟨hsound, hrange, -⟩ := (hdraft.build hshuffle).run calls
  rw [← hpool] at hsound hrange
  have hmem : q ∈ pool.order := by
    rw [hsound.order.mem_iff, hrange.trans (Draft.range_claimAll _ claims)]
    exact hq
  rcases hsound.sweep hfirst hsecond hmem hne with hhands | hpasses | hlast
  · exact ⟨.inl hhands, getsHeld_of_handsOut hhands⟩
  · exact ⟨.inr hpasses.concat, getsHeld_of_passesOver hpasses⟩
  · exact ⟨.inr (.last hlast), between, [], (List.append_nil _).symm, hlast.held⟩

/-- Port 81 is given back, and handed out again after port 80 was. -/
theorem swept_lobby : (∀ ps : List Port, ps.reverse.Perm ps) ∧ ∃ pool first second,
    pool = ((((Draft.new ⟨80, 81, by decide, by decide⟩).claimAll
      ([] : List (String × Port))).build List.reverse).run []) ∧
    pool.allocate "arena" = .ok (81, first) ∧
    (first.run [.release "arena" [81], .allocate "lobby"]).allocate "arena" =
      .ok (81, second) ∧
    ∀ q ∈ (⟨80, 81, by decide, by decide⟩ : PortRange).ports, q ≠ 81 →
      (Occurs (HandsOut q) first [.release "arena" [81], .allocate "lobby"] ∨
        Occurs (PassesOver q) first
          ([.release "arena" [81], .allocate "lobby"] ++ [.allocate "arena"])) ∧
      GetsHeld q first [.release "arena" [81], .allocate "lobby"] :=
  ⟨List.reverse_perm, _, _, _, rfl, rfl, rfl,
    swept_of_reuse ⟨80, 81, by decide, by decide⟩ [] List.reverse_perm []
      [.release "arena" [81], .allocate "lobby"] rfl rfl rfl⟩

end PortPool

end GameFleet
