import GameFleet.Plane.Sample
import GameFleet.Proofs.Collection.Writers

/-!
# The bounds of an autoscaler

The autoscaler compares the number of members that run with its bounds, and steps from the
number of replicas that are asked for. So the replicas stay within the bounds as long as the
members are abreast of them whenever a step is called for (`Crew.within_of_run`).

Nothing else holds the steps back : a collection that has too few members is steady when all
that it has are well, as when no ports are left for the others. The autoscaler takes it past its
maximum then (`Crew.beyond_exhausted`).
-/

namespace GameFleet

open Sample (arenaKey)

/-! ## Steps -/

theorem Collection.toNat_countOf (n : Nat) :
    (Collection.countOf n).toNat = min n (UInt32.size - 1) := by
  rw [Collection.countOf, UInt32.toNat_ofNat_of_lt']
  exact lt_of_le_of_lt (Nat.min_le_right _ _) (by decide)

namespace Autoscaler

variable {a : Autoscaler} {members : List GameServer}

theorem lt_of_grow (h : a.decide members = some .grow) :
    Collection.countOf (running members).length < a.maximumReplicas := by
  simp only [decide] at h
  split at h
  · cases h
  split at h
  · next hgrow => exact hgrow.1
  · split at h <;> cases h

theorem lt_of_shrink (h : a.decide members = some .shrink) :
    a.minimumReplicas < Collection.countOf (running members).length := by
  simp only [decide] at h
  split at h
  · cases h
  split at h
  · cases h
  split at h
  · next hshrink => exact hshrink.1
  · cases h

theorem decide_nil (a : Autoscaler) : a.decide [] = none := by
  have hzero : Collection.countOf (running []).length = 0 := rfl
  simp [decide, hzero]

end Autoscaler

namespace ScaleStep

variable {replicas bound : UInt32}

/-- One more or one less, as far as 32 bits go. -/
def moved : ScaleStep → Nat → Nat
  | .grow, n => min (n + 1) (UInt32.size - 1)
  | .shrink, n => n - 1

theorem toNat_apply (step : ScaleStep) (replicas : UInt32) :
    (step.apply replicas).toNat = step.moved replicas.toNat := by
  have hlimit := replicas.toNat_lt
  have hsize : UInt32.size - 1 = 4294967295 := rfl
  cases step with
  | grow =>
    simp only [apply, moved]
    split
    · next hlast =>
      have hnat : replicas.toNat = 4294967295 := congrArg UInt32.toNat hlast
      omega
    · next hroom =>
      have hnat : replicas.toNat ≠ 4294967295 := fun hnat => hroom (UInt32.toNat_inj.1 hnat)
      rw [UInt32.toNat_add, UInt32.toNat_one, Nat.mod_eq_of_lt (by omega)]
      omega
  | shrink =>
    simp only [apply, moved]
    split
    · next hzero =>
      rw [hzero]
      rfl
    · next hsome =>
      have hnat : replicas.toNat ≠ 0 := fun hnat => hsome (UInt32.toNat_inj.1 hnat)
      have hone : (1 : UInt32) ≤ replicas := by
        rw [UInt32.le_iff_toNat_le, UInt32.toNat_one]
        omega
      exact UInt32.toNat_sub_of_le _ _ hone

theorem apply_grow (h : replicas < bound) :
    replicas ≤ grow.apply replicas ∧ grow.apply replicas ≤ bound := by
  rw [UInt32.lt_iff_toNat_lt] at h
  have hbound := bound.toNat_lt
  have hsize : UInt32.size - 1 = 4294967295 := rfl
  constructor <;> rw [UInt32.le_iff_toNat_le, toNat_apply, moved] <;> omega

theorem apply_shrink (h : bound < replicas) :
    bound ≤ shrink.apply replicas ∧ shrink.apply replicas ≤ replicas := by
  rw [UInt32.lt_iff_toNat_lt] at h
  constructor <;> rw [UInt32.le_iff_toNat_le, toNat_apply, moved] <;> omega

end ScaleStep

namespace Collection

/-- The collection has an autoscaler with these bounds, and asks for a number of replicas within
them. -/
structure Within (lo hi : UInt32) (c : Collection) : Prop where
  bounds : ∃ a, c.spec.autoscaler = some a ∧ a.minimumReplicas = lo ∧ a.maximumReplicas = hi
  lower : lo ≤ c.spec.replicas
  upper : c.spec.replicas ≤ hi

/-- If the members call for a step, so many of them run already that the step does not leave them
behind. -/
structure Abreast (c : Collection) (members : List GameServer) : Prop where
  grow : ∀ a, c.activeAutoscaler? = some a → a.decide members = some .grow →
    c.spec.replicas.toNat ≤ (Autoscaler.running members).length
  shrink : ∀ a, c.activeAutoscaler? = some a → a.decide members = some .shrink →
    (Autoscaler.running members).length ≤ c.spec.replicas.toNat

variable {lo hi : UInt32} {c : Collection} {members : List GameServer}

theorem abreast_nil (c : Collection) : c.Abreast [] := by
  constructor <;>
  · intro a _ h
    rw [a.decide_nil] at h
    cases h

theorem Within.of_spec_eq {c' : Collection} (h : c.Within lo hi) (hspec : c'.spec = c.spec) :
    c'.Within lo hi := by
  obtain ⟨hbounds, hlower, hupper⟩ := h
  rw [← hspec] at hbounds hlower hupper
  exact ⟨hbounds, hlower, hupper⟩

/-- A step stays within the bounds. -/
theorem Within.scaled (h : c.Within lo hi) (hmembers : c.Abreast members) {a : Autoscaler}
    (ha : c.activeAutoscaler? = some a) {step : ScaleStep} (hstep : a.decide members = some step)
    (now : Time.Instant) : (c.scaled step now).Within lo hi := by
  obtain ⟨⟨b, hb, hlo, hhi⟩, hlower, hupper⟩ := h
  obtain rfl : b = a := by
    rw [activeAutoscaler?, hb, Option.filter_eq_some_iff] at ha
    exact Option.some.inj ha.1
  have hrunning := toNat_countOf (Autoscaler.running members).length
  cases step with
  | grow =>
    have hroom : c.spec.replicas < hi := by
      have hcount := Autoscaler.lt_of_grow hstep
      have hless := hmembers.grow b ha hstep
      rw [hhi, UInt32.lt_iff_toNat_lt] at hcount
      rw [UInt32.lt_iff_toNat_lt]
      have hlimit := c.spec.replicas.toNat_lt
      have hsize : UInt32.size - 1 = 4294967295 := rfl
      omega
    obtain ⟨hmore, hmost⟩ := ScaleStep.apply_grow hroom
    exact ⟨⟨_, congrArg (Option.map _) hb, hlo, hhi⟩, UInt32.le_trans hlower hmore, hmost⟩
  | shrink =>
    have hroom : lo < c.spec.replicas := by
      have hcount := Autoscaler.lt_of_shrink hstep
      have hmore := hmembers.shrink b ha hstep
      rw [hlo, UInt32.lt_iff_toNat_lt] at hcount
      rw [UInt32.lt_iff_toNat_lt]
      omega
    obtain ⟨hleast, hless⟩ := ScaleStep.apply_shrink hroom
    exact ⟨⟨_, congrArg (Option.map _) hb, hlo, hhi⟩, hleast, UInt32.le_trans hless hupper⟩

end Collection

/-! ## What is let happen -/

/-- The request leaves the spec of this collection alone, or creates it within the bounds. -/
def Request.Spares (w : World) (lo hi : UInt32) (key : Key) : Request → Prop
  | .create .collection a => Resource.key a = key → a.Within lo hi
  | .update .collection a => Resource.key a = key →
    ∀ c, (w.stores .collection).get? key = some c → a.spec = c.spec
  | _ => True

/-- The instances that a look-up has listed. -/
def Request.Lists : (request : Request) → request.Answer → List GameServer → Prop
  | .cachedList .gameServer _ _, .ok found, members => found = members
  | _, _, _ => False

/-- The duty is a pass over the autoscaler of this collection. -/
def Duty.IsScalingOf (key : Key) (d : Duty) : Prop := ∃ context, d = .pass context .autoscaler key

namespace Crew

/-- No operator edits the spec of this collection. -/
def unedited (lo hi : UInt32) (key : Key) : Regime where
  begins _ := True
  answers e d request _ := (∃ asked, d = .ask asked) → request.Spares e.world lo hi key
  quits _ := True

/-- No operator edits the spec of this collection, and the members that its autoscaler lists are
abreast of it. -/
def abreast (lo hi : UInt32) (key : Key) : Regime where
  begins _ := True
  answers e d request answer :=
    (unedited lo hi key).answers e d request answer ∧
      (d.IsScalingOf key → ∀ members, request.Lists answer members →
        ∀ c, (e.world.stores .collection).get? key = some c → c.Abreast members)
  quits _ := True

end Crew

/-! ## Notes of a step -/

/-- If a collection that was looked up is the one that is stored, then the members listed since
are abreast of it. -/
def Notes.Abreast (s : Notes) (w : World) (key : Key) : Prop :=
  ∀ c ∈ s.looked, Resource.key c = key →
    (w.stores .collection).get? key = some c → c.Abreast s.listed

namespace Notes

variable {w v : World} {s : Notes} {key : Key}

theorem Abreast.mono (h : s.Abreast w key) (hs : s.Sound w) (hw : w.Recorded) (hv : v.Recorded)
    (hlogs : ∀ kind, w.logs kind <+: v.logs kind) : s.Abreast v key := by
  rintro c hc rfl hstored
  exact h c hc rfl (World.stored_of_later hw hv (hlogs _) (hs.looked c hc) hstored)

theorem Abreast.served (h : s.Abreast w key) (hs : s.Sound w) (hw : w.Recorded)
    {request : Request} {answer : request.Answer} (hserves : w.Serves request answer v)
    (hlists : ∀ members, request.Lists answer members →
      ∀ c, (w.stores .collection).get? key = some c → c.Abreast members) :
    (s.after request answer).Abreast v key := by
  have hlater : s.Abreast v key := h.mono hs hw (hserves.recorded hw) hserves.logs
  unfold after
  split
  · exact fun c _ _ _ => c.abreast_nil
  · exact hlater
  · exact hlater
  · exact hlater
  · rintro c hc rfl hstored
    have hbefore := World.stored_of_later hw (hserves.recorded hw) (hserves.logs _)
      (hs.looked c hc) hstored
    exact hlists _ rfl c hbefore
  · exact hlater

end Notes

/-! ## Runs -/

section

variable {lo hi : UInt32} {key : Key} {w v : World} {d : Duty} {s : Notes} {request : Request}
  {answer : request.Answer}

/-- Whoever writes the collection leaves it within the bounds. -/
theorem Duty.within_of_may (hw : w.Recorded)
    (hwithin : ∀ c, (w.stores .collection).get? key = some c → c.Within lo hi) (hs : s.Sound w)
    (hmembers : d.IsScalingOf key → s.Abreast w key)
    (hspares : (∃ asked, d = .ask asked) → request.Spares w lo hi key) (hmay : d.May s request)
    (hserves : w.Serves request answer v) {c : Collection}
    (hc : (v.stores .collection).get? key = some c) : c.Within lo hi := by
  rcases World.stored_after hw .collection key hserves with hsame | ⟨a, birth, rfl, hkey, -, hv⟩ |
    ⟨a, old, rfl, hkey, hold, hversion, hv⟩ | ⟨-, hv⟩
  · exact hwithin c (hsame.symm.trans hc)
  · obtain rfl := Option.some.inj (hc.symm.trans hv)
    obtain rfl : d = _ := hmay
    exact (hspares ⟨_, rfl⟩ hkey : a.Within lo hi).of_spec_eq rfl
  · obtain rfl := Option.some.inj (hc.symm.trans hv)
    suffices h : a.Within lo hi from h.of_spec_eq rfl
    have hthen : old.Within lo hi := hwithin old hold
    -- Whoever was shown the version that it updates was shown the stored collection.
    have hread {seen : Collection} (hpast : w.Past .collection seen)
        (hmeta : a.metadata = seen.metadata) : seen = old := by
      have hseen : Resource.key seen = key := (congrArg Meta.key hmeta).symm.trans hkey
      have heq : Resource.version seen = Resource.version a :=
        (congrArg Meta.version hmeta).symm
      exact World.eq_of_past hw hpast (hseen.symm ▸ hold) (heq.trans hversion)
    cases d with
    | pass context r k =>
      cases r with
      | gameServer => exact hmay.elim
      | collection =>
        obtain ⟨seen, hseen, -, hmeta, hspec⟩ := hmay
        rw [hread (hs.got seen hseen) hmeta] at hspec
        exact hthen.of_spec_eq hspec
      | autoscaler =>
        obtain ⟨seen, hseen, auto, step, now, hk, -, hauto, hstep, rfl⟩ := hmay
        obtain rfl : seen = old := hread (hs.looked seen hseen) rfl
        obtain rfl : k = key := hk.symm.trans hkey
        exact hthen.scaled (hmembers ⟨context, rfl⟩ seen hseen hk hold) hauto hstep now
    | ask asked => exact hthen.of_spec_eq (hspares ⟨_, rfl⟩ hkey old hold)
    | _ => exact hmay.elim
  · rw [hv] at hc
    cases hc

end

namespace Crew

/-- The collection is within the bounds, if it is stored, and tasks have noted what was stored. -/
def scaling (lo hi : UInt32) (key : Key) : Discipline (abreast lo hi key) where
  Knowledge := Notes
  contract := Duty.custody
  sound w d s := s.Sound w ∧ (d.IsScalingOf key → s.Abreast w key)
  holds w := w.Recorded ∧ ∀ c, (w.stores .collection).get? key = some c → c.Within lo hi
  begins _ _ := ⟨.empty, ⟨Notes.sound_empty _, fun _ c hc => by cases hc⟩, Duty.keeps _⟩
  served := by
    rintro e v d s request answer ⟨hw, hwithin⟩ ⟨hs, hmembers⟩ hmay hserves ⟨hspares, hlists⟩
    refine ⟨⟨hserves.recorded hw, fun c hc => ?_⟩, _, ⟨hserves.tells hw, rfl⟩,
      hs.served hw hserves, fun hd => ?_⟩
    · exact Duty.within_of_may hw hwithin hs hmembers hspares hmay hserves hc
    · exact (hmembers hd).served hs hw hserves (hlists hd)
  others := by
    rintro w v d s request answer ⟨hw, -⟩ hserves ⟨hs, hmembers⟩
    exact ⟨hs.mono hserves.logs,
      fun hd => (hmembers hd).mono hs hw (hserves.recorded hw) hserves.logs⟩

/-- The replicas stay within the bounds of the autoscaler, if no operator edits the spec of the
collection and its members are abreast of it whenever the autoscaler lists them. -/
theorem within_of_run {start f : Crew} {lo hi : UInt32} {key : Key}
    (hrecorded : start.world.Recorded) (hidle : start.tasks = [])
    (hstart : ∀ c, (start.world.stores .collection).get? key = some c → c.Within lo hi)
    (hrun : Run (abreast lo hi key) start f) :
    ∀ c, (f.world.stores .collection).get? key = some c → c.Within lo hi := by
  have hkept : (scaling lo hi key).Kept start :=
    ⟨⟨hrecorded, hstart⟩, fun t ht => by rw [hidle] at ht; cases ht⟩
  exact (hkept.run hrun).holds.2

/-! ## A crowded collection -/

/-- Up to three replicas, with room for ten players on each. -/
def crowdedScaler : Autoscaler := ⟨1, 3, 30, 70, true, 5, 10, none⟩

/-- A collection that asks for so many replicas. -/
def crowded (replicas : UInt32) : Collection :=
  Store.newborn .empty Sample.birth
    (Sample.collection "arena" replicas .remove 1 (some crowdedScaler))

/-- The collection when its members are found well. -/
def crowdedSummed (replicas : UInt32) : Collection :=
  let c := crowded replicas
  { c with
    metadata := { c.metadata with version := 2 }
    status := { c.status with health := .healthy, podState := some .running, available := 2 } }

/-- A member on which no place is left, as the write of this number has stored it. -/
def crowdedMember (name : String) (version : Nat) (port : Port) : GameServer :=
  let g := (crowded 0).newMember name
  { g with
    metadata := { g.metadata with uid := some ⟨version⟩, version }
    spec := { g.spec with template := g.spec.template.filled g.exposes [port] }
    status := { g.status with
      health := .healthy, podPhase := some .running, activePlayers := 10 } }

def crowdedMembers : List GameServer :=
  [crowdedMember "arena-a" 1 20000, crowdedMember "arena-b" 2 20001]

/-- The two members have all the ports that there are. -/
def crowdedWorld (replicas : UInt32) : World :=
  crowdedMembers.foldl (fun w g => w.changed .gameServer (.added g))
    ((World.blank (Sample.registry crowdedMembers)).changed .collection
      (.added (crowded replicas)))

theorem recorded_crowdedWorld (replicas : UInt32) : (crowdedWorld replicas).Recorded := by
  refine World.Recorded.changed (World.Recorded.changed (World.Recorded.changed
    (World.recorded_blank _) ?_) ?_) ?_
  all_goals exact ⟨rfl, by rintro _ ⟨⟩; rfl⟩

theorem within_crowdedWorld (replicas : UInt32) (hlower : 1 ≤ replicas) (hupper : replicas ≤ 3) :
    ∀ c, ((crowdedWorld replicas).stores .collection).get? arenaKey = some c → c.Within 1 3 := by
  rintro c ⟨⟩
  exact ⟨⟨_, rfl, rfl, rfl⟩, hlower, hupper⟩

theorem past_crowdedMembers {w : World} (h : w.logs .gameServer = crowdedMembers.map .added) :
    ∀ g ∈ crowdedMembers, w.Past .gameServer g := by
  intro g hg
  rw [World.Past, h]
  rcases List.mem_pair.1 hg with rfl | rfl
  · exact ⟨1, by decide, rfl⟩
  · exact ⟨2, by decide, rfl⟩

/-- The members call for one replica more, and there are as many of them as asked for. -/
theorem within_stepped :
    ∃ f, Run (abreast 1 3 arenaKey) ⟨crowdedWorld 2, []⟩ f ∧
      ((f.world.stores .collection).get? arenaKey).map (·.spec.replicas) = some 3 ∧
      ∀ c, (f.world.stores .collection).get? arenaKey = some c → c.Within 1 3 := by
  have hstart : Run (abreast 1 3 arenaKey) ⟨crowdedWorld 2, []⟩ ⟨crowdedWorld 2, []⟩ := .refl
  have hmaster {context r k} : ¬∃ asked, Duty.pass context r k = .ask asked := by
    rintro ⟨_, ⟨⟩⟩
  have hpass {e request answer} :
      (abreast 1 3 arenaKey).answers e (.pass default .collection arenaKey) request answer := by
    refine ⟨fun h => absurd h hmaster, ?_⟩
    rintro ⟨_, ⟨⟩⟩
  have hstep {e} {request : Request} {answer : request.Answer}
      (h : ∀ members, ¬request.Lists answer members) :
      (abreast 1 3 arenaKey).answers e (.pass default .autoscaler arenaKey) request answer :=
    ⟨fun h => absurd h hmaster, fun _ members hmembers => absurd hmembers (h members)⟩
  have hbegun := hstart.tail (.begin _ (.pass default .collection arenaKey) trivial)
  have hfound : ∀ a, some (crowded 2) = some a →
      Resource.key a = arenaKey ∧ (crowdedWorld 2).Past .collection a := by
    rintro a ⟨⟩
    exact ⟨rfl, 1, by decide, rfl⟩
  have hread := ((hbegun.tail
    (.serve _ [] [] _ _ _ _ _ rfl (.cached hfound) hpass)).tail
    (.serve _ [] [] _ _ _ _ _ rfl .list hpass)).tail
    (.serve _ [] [] _ _ _ _ _ rfl .get hpass)
  have hsummed := hread.tail (.serve _ [] [] _ _ _ _ _ rfl (.update rfl) hpass)
  have hagain := (hsummed.tail (.leave _ [] [] _ rfl (.inr trivial))).tail
    (.begin _ (.pass default .autoscaler arenaKey) trivial)
  have hlooked := (hagain.tail
    (.serve _ [] [] _ (.cached .collection _) _ (.ok (some (crowdedSummed 2))) _ rfl
      (.cached (by rintro a ⟨⟩; exact ⟨rfl, 2, by decide, rfl⟩)) (hstep fun _ h => h))).tail
    (.serve _ [] [] _ .now _ ⟨0, 0⟩ _ rfl (.harmless trivial) (hstep fun _ h => h))
  have habreast : (crowdedSummed 2).Abreast crowdedMembers :=
    ⟨fun _ _ _ => by decide, fun _ _ _ => by decide⟩
  have hlisted := hlooked.tail
    (.serve _ [] [] _ (.cachedList .gameServer _ _) _ (.ok crowdedMembers) _ rfl
      (.cachedList (past_crowdedMembers rfl))
      ⟨fun h => absurd h hmaster, by rintro - _ rfl c ⟨⟩; exact habreast⟩)
  have hstepped := hlisted.tail
    (.serve _ [] [] _ (.update .collection _) _ _ _ (by with_unfolding_all rfl) (.update rfl)
      (hstep fun _ h => h))
  refine ⟨_, hstepped, by decide +kernel, ?_⟩
  exact within_of_run (recorded_crowdedWorld 2) rfl (within_crowdedWorld 2 (by decide) (by decide))
    hstepped

/-- One of three replicas finds no port, and the collection is steady without it. The autoscaler
then asks for a fourth one, and its maximum is three. -/
theorem beyond_exhausted :
    (crowdedWorld 3).Recorded ∧
    (∀ c, ((crowdedWorld 3).stores .collection).get? arenaKey = some c → c.Within 1 3) ∧
    ∃ f, Run (unedited 1 3 arenaKey) ⟨crowdedWorld 3, []⟩ f ∧
      ∃ c, (f.world.stores .collection).get? arenaKey = some c ∧ c.spec.replicas = 4 ∧
        ¬c.Within 1 3 := by
  refine ⟨recorded_crowdedWorld 3, within_crowdedWorld 3 (by decide) (by decide), ?_⟩
  have hstart : Run (unedited 1 3 arenaKey) ⟨crowdedWorld 3, []⟩ ⟨crowdedWorld 3, []⟩ := .refl
  have hlet {context r k} {w : World} {request : Request} :
      (∃ asked, Duty.pass context r k = .ask asked) → request.Spares w 1 3 arenaKey := by
    rintro ⟨_, ⟨⟩⟩
  have hbegun := hstart.tail (.begin _ (.pass default .collection arenaKey) trivial)
  have hfound : ∀ a, some (crowded 3) = some a →
      Resource.key a = arenaKey ∧ (crowdedWorld 3).Past .collection a := by
    rintro a ⟨⟩
    exact ⟨rfl, 1, by decide, rfl⟩
  have hread := ((hbegun.tail
    (.serve _ [] [] _ _ _ _ _ rfl (.cached hfound) hlet)).tail
    (.serve _ [] [] _ _ _ _ _ rfl .list hlet)).tail
    (.serve _ [] [] _ _ _ _ _ rfl .get hlet)
  have hsummed := hread.tail (.serve _ [] [] _ _ _ _ _ rfl (.update rfl) hlet)
  have hexhausted := ((hsummed.tail
    (.serve _ [] [] _ (.suffix _) _ "c" _ rfl (.harmless trivial) hlet)).tail
    (.serve _ [] [] _ _ _ _ _ rfl .allocate hlet)).tail
    (.serve _ [] [] _ (.release _ _) _ _ _ rfl .release hlet)
  have hagain := (hexhausted.tail (.leave _ [] [] _ rfl (.inr trivial))).tail
    (.begin _ (.pass default .autoscaler arenaKey) trivial)
  have hlooked := (hagain.tail
    (.serve _ [] [] _ (.cached .collection _) _ (.ok (some (crowdedSummed 3))) _ rfl
      (.cached (by rintro a ⟨⟩; exact ⟨rfl, 2, by decide, rfl⟩)) hlet)).tail
    (.serve _ [] [] _ .now _ ⟨0, 0⟩ _ rfl (.harmless trivial) hlet)
  have hlisted := hlooked.tail
    (.serve _ [] [] _ (.cachedList .gameServer _ _) _ (.ok crowdedMembers) _ rfl
      (.cachedList (past_crowdedMembers rfl)) hlet)
  have hstepped := hlisted.tail
    (.serve _ [] [] _ (.update .collection _) _ _ _ (by with_unfolding_all rfl) (.update rfl) hlet)
  refine ⟨_, hstepped, _, rfl, by decide, fun h => ?_⟩
  exact absurd h.upper (by decide)

end Crew

end GameFleet
