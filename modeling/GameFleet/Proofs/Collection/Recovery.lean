import GameFleet.Proofs.Collection.Failures
import GameFleet.Proofs.Collection.Provision

/-!
# Who is dealt with as failed

A pass over a collection deals with the members that it has listed as failed. Whoever it detaches is
still a member then. Whoever it detaches or deletes is still a failed member, if no change has spoilt
that since the copy in the list was stored (`Chronicle.failed_of_run`). The pass does not look again
at the health of a member, and not at what it deletes : an instance that has recovered meanwhile is
detached (`Chronicle.recovered_detached`), and one that has left the collection is deleted
(`Chronicle.departed_deleted`).
-/

namespace GameFleet

open Sample (arenaKey)

/-! ## Failed members -/

/-- The instance is a member of the collection, and has failed. -/
def GameServer.FailsIn (key : Key) (g : GameServer) : Prop :=
  g.IsMember key ∧ g.status.health = .failed

namespace World

variable {u w : World} {kind : Kind} {key : Key} {g : GameServer}

/-- Since this copy of an instance was stored, a change has left another than a failed member under
its key, and has found none there or a failed one. -/
def Spoils (w : World) (key : Key) (seen : GameServer) : Prop :=
  ∃ i c, Resource.version seen ≤ i ∧ (w.logs .gameServer)[i]? = some c ∧
    c.Breaks (GameServer.FailsIn key) (Resource.key seen)

/-- What was met in an earlier world is met as long as no change breaks it. -/
theorem holdsAt_of_earlier {P : kind.Obj → Prop} {k : Key} (hu : u.Recorded) (hw : w.Recorded)
    (hlogs : u.logs kind <+: w.logs kind) (h : (u.stores kind).HoldsAt P k)
    (hkeeps : ∀ i c, (u.logs kind).length ≤ i → (w.logs kind)[i]? = some c → ¬c.Breaks P k) :
    (w.stores kind).HoldsAt P k := by
  have hthen : (Store.past (w.logs kind) (u.logs kind).length).HoldsAt P k := by
    obtain ⟨more, hmore⟩ := hlogs
    rwa [← hmore, Store.past_append _ le_rfl, (hu kind).past_eq]
  rw [← (hw kind).past_eq]
  exact hthen.past (hw kind).legal hlogs.length_le le_rfl hkeeps

/-- A member that was listed as failed is a failed one as long as no change spoils that. -/
theorem failsIn_of_listed (hu : u.Recorded) (hw : w.Recorded)
    (hlogs : u.logs .gameServer <+: w.logs .gameServer) (hg : g ∈ u.members key)
    (hfailed : g.status.health = .failed) (hkeeps : ¬w.Spoils key g) :
    (w.stores .gameServer).HoldsAt (GameServer.FailsIn key) (Resource.key g) := by
  obtain ⟨hstored, hmember⟩ := (mem_members (hu .gameServer).sound).1 hg
  have hversion : Resource.version g ≤ (u.logs .gameServer).length := by
    have hle := (hu .gameServer).sound.version_le hstored
    rwa [← (hu .gameServer).past_eq, Store.version_past le_rfl] at hle
  refine holdsAt_of_earlier hu hw hlogs (fun b hb => ?_) fun i c hi hc hbreaks =>
    hkeeps ⟨i, c, hversion.trans hi, hc, hbreaks⟩
  obtain rfl := Option.some.inj (hstored.symm.trans hb)
  exact ⟨hmember, hfailed⟩

end World

/-! ## What a pass has listed -/

namespace Course

variable {key : Key} {past : List Exchange}

/-- The list that a pass goes by is one that it was answered with. -/
theorem exists_of_listed {found : List GameServer} (h : (of key past).listed = some found) :
    ∃ before ns selector after,
      past = before ++ ⟨.list .gameServer ns selector, .ok found⟩ :: after := by
  induction past using List.reverseRecOn with
  | nil => cases h
  | append_singleton past x ih =>
    rw [of_concat] at h
    rcases listed_after h with ⟨ns, selector, rfl⟩ | ⟨hbefore, -⟩
    · exact ⟨past, ns, selector, [], rfl⟩
    · obtain ⟨before, ns, selector, after, rfl⟩ := ih hbefore
      exact ⟨before, ns, selector, after ++ [x], by simp⟩

theorem exists_of_mem_failed {s : Course} {k : Key} (h : k ∈ s.failed) :
    ∃ found, s.listed = some found ∧ ∃ g ∈ found, g.status.health = .failed ∧ Resource.key g = k := by
  obtain ⟨g, hg, rfl⟩ := List.mem_map.1 h
  obtain ⟨hmem, hfailed⟩ := List.mem_filter.1 hg
  cases hlisted : s.listed with
  | none =>
    rw [hlisted] at hmem
    cases hmem
  | some found =>
    rw [hlisted] at hmem
    exact ⟨found, rfl, g, hmem, by simpa using hfailed, rfl⟩

end Course

namespace Chronicle

variable {c : Chronicle} {d : Deed} {key : Key}

/-- The members that a pass has listed are those of an earlier world. -/
theorem listed_of_run {R : Regime} {w : World} (hrecorded : w.Recorded)
    (hrun : Run R (opening w) c) (hd : d ∈ c.deeds) (hpass : d.duty.IsPassOver key)
    {found : List GameServer} (hlisted : (Course.of key d.past).listed = some found) :
    ∃ u : World, u.Recorded ∧ (∀ kind, u.logs kind <+: d.before.logs kind) ∧
      found = u.members key := by
  have hfaithful := faithful_of_run hrecorded hrun
  obtain ⟨before, ns, selector, after, hpast⟩ := Course.exists_of_listed hlisted
  -- The list was a deed of the pass, which says what it has asked for.
  obtain ⟨l, hl, hduty, rfl, hexchange⟩ := (hfaithful.deeds d hd).attested before _ after hpast
  have hmay := (hfaithful.deeds l hl).may_course (hfaithful.possible _) (hduty ▸ hpass)
  rw [hexchange] at hmay
  obtain ⟨rfl, rfl⟩ := hmay
  obtain ⟨u, v, hu, hserves, hlogs⟩ := (earlier_of_run hrecorded hrun).2 d hd _
    (hpast ▸ List.mem_append_right _ List.mem_cons_self)
  exact ⟨u, hu, hlogs, (World.eq_members_of_list hserves).1⟩

/-- Whoever a pass detaches is a member still. -/
theorem Happened.detached_isMember {deeds : List Deed} (h : Happened deeds d)
    (hpossible : FairTo deeds (fun _ x => x.Possible) d.duty) (hpass : d.duty.IsPassOver key)
    {g b : GameServer} (hexchange : d.exchange = ⟨.update .gameServer g, .ok b⟩)
    (hfailed : Resource.key g ∈ (Course.of key d.past).failed) :
    ∃ old, (d.before.stores .gameServer).get? (Resource.key g) = some old ∧
      old.collection? = some key.name := by
  have hmay := h.may_course hpossible hpass
  have hserves := h.serves
  rw [hexchange] at hmay hserves
  obtain ⟨-, seen, hserver, ⟨-, hdetach⟩ | ⟨hnone, -⟩⟩ := hmay
  · obtain ⟨hkey, hversion, -⟩ := Pass.leaving_detach hdetach
    have hlabel : seen.collection? = some key.name := by
      unfold Pass.detach at hdetach
      split at hdetach
      · next hlabel => exact hlabel
      · cases hdetach
    generalize d.after = v at hserves
    cases hserves with
    | harmless h => exact h.elim
    | update hwritten =>
      obtain ⟨old, hold, hversion', -, -⟩ := Store.update_eq_ok hwritten
      obtain rfl : seen = old := World.eq_of_past h.recorded (Course.past_of_server h.shown hserver)
        (hkey ▸ hold) (hversion.symm.trans hversion'.symm)
      exact ⟨seen, hold, hlabel⟩
  · rw [hnone] at hfailed
    cases hfailed

/-- The deed detaches or deletes an instance, stored as `old`, that its pass has listed as a failed
member. If it is detached it is a member still. -/
structure Deed.Removes (d : Deed) (key : Key) (seen old : GameServer) : Prop where
  listed : ∃ found, (Course.of key d.past).listed = some found ∧ seen ∈ found
  failed : seen.FailsIn key
  stored : (d.before.stores .gameServer).get? (Resource.key seen) = some old
  exchange : (∃ g b, d.exchange = ⟨.update .gameServer g, .ok b⟩ ∧
      Resource.key g = Resource.key seen ∧ old.IsMember key) ∨
    d.exchange = ⟨.delete .gameServer (Resource.key seen), .ok ()⟩

/-- Whoever a pass over a collection detaches or deletes as failed was listed as a failed member. It
is a member still when it is detached, and a failed one in both cases if no change has spoilt that
since. -/
theorem failed_of_run {w : World} (hrecorded : w.Recorded) (hrun : Run .anything (opening w) c)
    (hd : d ∈ c.deeds) (hpass : d.duty.IsPassOver key)
    (hhandles : (Course.of key d.past).Handles d.exchange) :
    ∃ seen old, d.Removes key seen old ∧ (¬d.before.Spoils key seen → old.FailsIn key) := by
  have hfaithful := faithful_of_run hrecorded hrun
  have hdeed := hfaithful.deeds d hd
  have hseen {k : Key} (hk : k ∈ (Course.of key d.past).failed) : ∃ seen,
      (∃ found, (Course.of key d.past).listed = some found ∧ seen ∈ found) ∧ seen.FailsIn key ∧
      Resource.key seen = k ∧ (¬d.before.Spoils key seen →
        (d.before.stores .gameServer).HoldsAt (GameServer.FailsIn key) k) := by
    obtain ⟨found, hlisted, seen, hmem, hfailed, rfl⟩ := Course.exists_of_mem_failed hk
    obtain ⟨u, hu, hlogs, rfl⟩ := listed_of_run hrecorded hrun hd hpass hlisted
    have hmember := ((World.mem_members (hu .gameServer).sound).1 hmem).2
    exact ⟨seen, ⟨_, hlisted, hmem⟩, ⟨hmember, hfailed⟩, rfl,
      World.failsIn_of_listed hu hdeed.recorded (hlogs _) hmem hfailed⟩
  rcases hhandles.cases with ⟨g, b, hexchange, hk⟩ | ⟨k, hexchange, hk⟩
  · obtain ⟨seen, hlisted, hfails, hkey, hholds⟩ := hseen hk
    obtain ⟨old, hold, hlabel⟩ :=
      hdeed.detached_isMember (hfaithful.possible _) hpass hexchange hk
    have hns : old.metadata.ns = key.ns := by
      have hsame := congrArg Key.ns ((hdeed.recorded .gameServer).sound.key_eq hold)
      exact hsame.trans ((congrArg Key.ns hkey).symm.trans hfails.1.1)
    exact ⟨seen, old, ⟨hlisted, hfails, hkey ▸ hold,
      .inl ⟨g, b, hexchange, hkey.symm, hns, hlabel⟩⟩, fun hkeeps => hholds hkeeps old hold⟩
  · obtain ⟨seen, hlisted, hfails, rfl, hholds⟩ := hseen hk
    have hserves := hdeed.serves
    rw [hexchange] at hserves
    generalize d.after = v at hserves
    cases hserves with
    | harmless h => exact h.elim
    | delete hgone =>
      obtain ⟨old, hold, -, -⟩ := Store.delete_eq_ok (hdeed.recorded _).sound hgone
      exact ⟨seen, old, ⟨hlisted, hfails, hold, .inr hexchange⟩,
        fun hkeeps => hholds hkeeps old hold⟩

/-! ## A failed member that is dealt with -/

/-- A pass that detaches a failed member. -/
theorem failed_frail :
    ∃ c d, Run .anything (opening frailWorld) c ∧
      (d ∈ c.deeds ∧ d.duty.IsPassOver arenaKey ∧
        (Course.of arenaKey d.past).Handles d.exchange) ∧
      ∃ seen old, d.Removes arenaKey seen old ∧ ¬d.before.Spoils arenaKey seen ∧
        old.FailsIn arenaKey := by
  have hstart : Run .anything (opening frailWorld) (opening frailWorld) := .refl
  have hsummed := ((((hstart.tail (.begin _ (.pass default .collection arenaKey) trivial)).tail
    (.serve _ [] [] _ _ _ _ _ _ rfl (.cached frail_found) trivial)).tail
    (.serve _ [] [] _ _ _ _ _ _ rfl .list trivial)).tail
    (.serve _ [] [] _ _ _ _ _ _ rfl .get trivial)).tail
    (.serve _ [] [] _ _ _ _ _ _ rfl (.update rfl) trivial)
  have hdone := (hsummed.tail
    (.serve _ [] [] _ _ _ _ _ _ rfl .get trivial)).tail
    (.serve _ [] [] _ _ _ _ _ _ rfl (.update rfl) trivial)
  obtain ⟨c, d, hrun, hd, hpass, hhandles, hlog⟩ : ∃ c d, Run .anything (opening frailWorld) c ∧
      d ∈ c.deeds ∧ d.duty.IsPassOver arenaKey ∧
      (Course.of arenaKey d.past).Handles d.exchange ∧
      d.before.logs .gameServer = [.added frailMember] :=
    ⟨_, _, hdone, List.mem_append_right _ List.mem_cons_self, ⟨_, rfl⟩, by decide +kernel, rfl⟩
  obtain ⟨seen, old, hremoves, hfails⟩ := failed_of_run recorded_frailWorld hrun hd hpass hhandles
  have hkeeps : ¬d.before.Spoils arenaKey seen := by
    rintro ⟨i, change, -, hchange, g, hafter, -, hnot, -⟩
    rw [hlog] at hchange
    obtain rfl := List.mem_singleton.1 (List.mem_of_getElem? hchange)
    cases hafter
    exact hnot ⟨⟨rfl, rfl⟩, rfl⟩
  exact ⟨c, d, hrun, ⟨hd, hpass, hhandles⟩, seen, old, hremoves, hkeeps, hfails hkeeps⟩

/-- The member is reported to be healthy after the pass has listed it, and is detached. -/
theorem recovered_detached :
    ∃ c d, Run .anything (opening frailWorld) c ∧
      (d ∈ c.deeds ∧ d.duty.IsPassOver arenaKey ∧
        (Course.of arenaKey d.past).Handles d.exchange) ∧
      ∃ old, (d.before.stores .gameServer).get? (Resource.key frailMember) = some old ∧
        old.status.health = .healthy := by
  have hstart : Run .anything (opening frailWorld) (opening frailWorld) := .refl
  have hsummed := ((((hstart.tail (.begin _ (.pass default .collection arenaKey) trivial)).tail
    (.serve _ [] [] _ _ _ _ _ _ rfl (.cached frail_found) trivial)).tail
    (.serve _ [] [] _ _ _ _ _ _ rfl .list trivial)).tail
    (.serve _ [] [] _ _ _ _ _ _ rfl .get trivial)).tail
    (.serve _ [] [] _ _ _ _ _ _ rfl (.update rfl) trivial)
  have hrecovered := (((hsummed.tail
    (.begin _ (.report default (Resource.key frailMember) fun s => { s with health := .healthy })
      trivial)).tail
    (.serve _ [_] [] _ _ _ _ _ _ rfl .get trivial)).tail
    (.serve _ [_] [] _ _ _ _ _ _ rfl (.update rfl) trivial)).tail
    (.leave _ [_] [] _ rfl (.inl rfl))
  have hdone := (hrecovered.tail
    (.serve _ [] [] _ _ _ _ _ _ rfl .get trivial)).tail
    (.serve _ [] [] _ _ _ _ _ _ rfl (.update rfl) trivial)
  exact ⟨_, _, hdone, ⟨List.mem_append_right _ List.mem_cons_self, ⟨_, rfl⟩, by decide +kernel⟩,
    _, rfl, rfl⟩

/-- A collection of one replica that deletes members which fail. -/
def brittle : Collection :=
  Store.newborn .empty Sample.birth (Sample.collection "arena" 1 .delete 5 none)

def brittleWorld : World :=
  ((World.blank (Sample.registry [])).changed .collection (.added brittle)).changed .gameServer
    (.added frailMember)

theorem brittle_found (a : Collection) (h : some brittle = some a) :
    Resource.key a = arenaKey ∧ brittleWorld.Past .collection a := by
  cases h
  exact ⟨rfl, 1, by decide, rfl⟩

/-- An operator detaches the member after the pass has listed it, and it is deleted. -/
theorem departed_deleted :
    ∃ c d, Run .anything (opening brittleWorld) c ∧
      (d ∈ c.deeds ∧ d.duty.IsPassOver arenaKey ∧
        (Course.of arenaKey d.past).Handles d.exchange) ∧
      ∃ old, (d.before.stores .gameServer).get? (Resource.key frailMember) = some old ∧
        old.collection? = none := by
  have hstart : Run .anything (opening brittleWorld) (opening brittleWorld) := .refl
  have hsummed := ((((hstart.tail (.begin _ (.pass default .collection arenaKey) trivial)).tail
    (.serve _ [] [] _ _ _ _ _ _ rfl (.cached brittle_found) trivial)).tail
    (.serve _ [] [] _ _ _ _ _ _ rfl .list trivial)).tail
    (.serve _ [] [] _ _ _ _ _ _ rfl .get trivial)).tail
    (.serve _ [] [] _ _ _ _ _ _ rfl (.update rfl) trivial)
  have hstray := ((hsummed.tail (.begin _ (.ask (.update .gameServer frailStray)) trivial)).tail
    (.serve _ [_] [] _ _ _ _ _ _ rfl (.update rfl) trivial)).tail
    (.leave _ [_] [] _ rfl (.inl rfl))
  have hdone := hstray.tail (.serve _ [] [] _ _ _ _ _ _ rfl (.delete rfl) trivial)
  exact ⟨_, _, hdone, ⟨List.mem_append_right _ List.mem_cons_self, ⟨_, rfl⟩, by decide +kernel⟩,
    _, rfl, rfl⟩

end Chronicle

end GameFleet
