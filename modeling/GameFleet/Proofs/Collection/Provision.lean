import GameFleet.Plane.Sample
import GameFleet.Proofs.Collection.Course
import GameFleet.Proofs.Collection.Orphans

/-!
# No more members than were asked for

A pass over a collection counts the members that are stored, and makes those that are missing.
Nobody else makes members, as long as passes over the collection do not overlap and no operator
adds any (`Crew.provisioning`), so from its count on there are never more members than the pass
has counted and made (`Chronicle.Provided`). Hence whatever becomes of members in the meantime, and
wherever passes fail and begin again, no instance that a pass makes is one too many
(`Chronicle.provided_of_run`).
-/

namespace GameFleet

open Sample (arenaKey)

/-! ## How many members there are -/

/-- The request makes an instance a member of the collection that was none before. -/
def Request.Enlists (w : World) (key : Key) : Request → Prop
  | .create .gameServer g => g.IsMember key
  | .update .gameServer g => g.IsMember key ∧
    ∀ old, (w.stores .gameServer).get? (Resource.key g) = some old → ¬old.IsMember key
  | _ => False

namespace World

variable {w v : World} {key : Key} {c : Change GameServer}

theorem length_members_changed (key : Key) (h : (w.stores .gameServer).Admits c) :
    ((w.changed .gameServer c).members key).length +
        (c.before?.toList.filter (GameServer.IsMember key ·)).length =
      (w.members key).length + (c.after?.toList.filter (GameServer.IsMember key ·)).length := by
  simpa using congrArg Multiset.card (members_changed key h)

/-- A change brings one member at most. -/
theorem length_members_le_succ (key : Key) (h : (w.stores .gameServer).Admits c) :
    ((w.changed .gameServer c).members key).length ≤ (w.members key).length + 1 := by
  have hlength := length_members_changed key h
  have hafter : (c.after?.toList.filter (GameServer.IsMember key ·)).length ≤ 1 :=
    (List.length_filter_le _ _).trans (by cases c.after? <;> simp)
  omega

/-- A change that leaves no member where it has found none brings no member. -/
theorem length_members_le (h : (w.stores .gameServer).Admits c)
    (hafter : ∀ g, c.after? = some g → g.IsMember key →
      ∃ old, c.before? = some old ∧ old.IsMember key) :
    ((w.changed .gameServer c).members key).length ≤ (w.members key).length := by
  have hlength := length_members_changed key h
  suffices hle : (c.after?.toList.filter (GameServer.IsMember key ·)).length ≤
      (c.before?.toList.filter (GameServer.IsMember key ·)).length by omega
  cases hfound : c.after? with
  | none => simp
  | some g =>
    by_cases hg : g.IsMember key
    · obtain ⟨old, hold, hmember⟩ := hafter g hfound hg
      simp [hold, hmember, hg]
    · simp [hg]

/-- What a list of the members is answered with. -/
theorem eq_members_of_list {found : List GameServer}
    (h : w.Serves (.list .gameServer key.ns (.ofLabel Labels.collectionName key.name))
      (.ok found) v) : found = w.members key ∧ v = w := by
  cases h with
  | harmless h => exact h.elim
  | list => exact ⟨rfl, rfl⟩

theorem eq_of_error {kind : Kind} {a : kind.Obj} {e : StoreError}
    (h : w.Serves (.create kind a) (.error e) v) : v = w := by
  cases h
  rfl

end World

section

variable {key : Key} {w v : World} {d : Duty} {s : Notes} {request : Request}
  {answer : request.Answer}

/-- Only passes over the collection make members of it, and operators. -/
theorem Duty.length_members_le (hw : w.Recorded) (hs : s.Sound w) (hmay : d.May s request)
    (hpass : ¬d.IsPassOver key) (hask : ∀ asked, d = .ask asked → ¬asked.Enlists w key)
    (hserves : w.Serves request answer v) :
    (v.members key).length ≤ (w.members key).length := by
  rcases hserves.change_cases hw .gameServer with hsame | ⟨a, birth, rfl, -, rfl, hadmits⟩ |
    ⟨a, old, rfl, hold, hversion, rfl, hadmits⟩ | ⟨k, old, rfl, -, rfl, hadmits⟩
  · rw [World.members_of_stores_eq hsame]
  · refine World.length_members_le hadmits fun g hg hmember => ?_
    obtain rfl := Option.some.inj hg
    have ha : a.IsMember key := (GameServer.isMember_newborn _ birth a).1 hmember
    cases d with
    | pass context r k =>
      cases r with
      | collection =>
        obtain rfl : key = k := ha.key_eq hmay.2
        exact absurd ⟨context, rfl⟩ hpass
      | _ => exact hmay.elim
    | ask asked =>
      obtain rfl : asked = _ := hmay
      exact absurd ha (hask _ rfl)
    | _ => exact hmay.elim
  · refine World.length_members_le hadmits fun g hg hmember => ⟨old, rfl, ?_⟩
    obtain rfl := Option.some.inj hg
    have ha : a.IsMember key := hmember
    rcases hmay with ⟨seen, hseen, hseenKey, hseenVersion, hwho⟩ | rfl
    · -- An update that is let through was made of the stored instance.
      have hstored : (w.stores .gameServer).get? (Resource.key seen) = some old := by
        rw [← hseenKey, hold]
      obtain rfl : seen = old :=
        World.eq_of_past hw (hs.servers seen hseen) hstored (hseenVersion.symm.trans hversion)
      rcases hwho with hmeta | hnone
      · unfold GameServer.IsMember GameServer.collection? at ha ⊢
        rwa [← hmeta]
      · have hlabel := ha.2
        rw [hnone] at hlabel
        cases hlabel
    · by_contra hnot
      refine hask _ rfl ⟨ha, fun old' hold' => ?_⟩
      obtain rfl : old = old' := Option.some.inj (hold.symm.trans hold')
      exact hnot
  · exact World.length_members_le hadmits fun g hg => by cases hg

end

/-! ## The count of a pass -/

namespace Course

variable {key : Key} {s : Course} {w v : World} {x : Exchange} {found : List GameServer}

/-- The members are no more than those that the pass has listed and made. -/
def Counts (key : Key) (s : Course) (w : World) : Prop :=
  ∀ found, s.listed = some found → (w.members key).length ≤ found.length + s.made

/-- The count of a pass holds on when the pass is served. -/
theorem Counts.served {request : Request} {answer : request.Answer} (h : s.Counts key w)
    (hw : w.Recorded) (hmay : s.May key request) (hserves : w.Serves request answer v) :
    (s.after key ⟨request, answer⟩).Counts key v := by
  intro found hlisted
  rcases listed_after hlisted with ⟨ns, selector, heq⟩ | ⟨hbefore, hmade⟩
  · cases heq
    obtain ⟨rfl, rfl⟩ := hmay
    obtain ⟨rfl, rfl⟩ := World.eq_members_of_list hserves
    exact Nat.le_add_right _ _
  have hle := h found hbefore
  rcases hserves.change_cases hw .gameServer with hsame | ⟨a, birth, rfl, -, rfl, hadmits⟩ |
    ⟨a, old, rfl, -, -, rfl, hadmits⟩ | ⟨k, old, rfl, -, rfl, hadmits⟩
  · rw [World.members_of_stores_eq hsame]
    omega
  · cases answer with
    | ok b =>
      have hone := World.length_members_le_succ key hadmits
      simp only [after]
      omega
    | error e =>
      rw [World.eq_of_error hserves]
      exact hle
  · -- Whoever is written has left.
    have hleft : a.collection? = none := by
      obtain ⟨-, server, -, ⟨-, ha⟩ | ⟨-, ha⟩⟩ := hmay
      · exact (Pass.leaving_detach ha).2.2
      · exact (Pass.leaving_detachMarked ha).2.2
    have hsame : ((w.changed .gameServer (.updated old
        ((w.stores .gameServer).successor old a))).members key).length ≤
          (w.members key).length := by
      refine World.length_members_le hadmits fun g hg hmember => ?_
      obtain rfl := Option.some.inj hg
      have hlabel : a.collection? = some key.name := hmember.2
      rw [hleft] at hlabel
      cases hlabel
    omega
  · have hsame : ((w.changed .gameServer (.deleted old)).members key).length ≤
        (w.members key).length :=
      World.length_members_le hadmits fun g hg => by cases hg
    omega

theorem Counts.of_le (h : s.Counts key w)
    (hle : (v.members key).length ≤ (w.members key).length) : s.Counts key v :=
  fun found hlisted => hle.trans (h found hlisted)

/-- The count leaves room for an instance that the pass makes. -/
theorem Counts.room {g b : GameServer} (h : s.Counts key w) (hw : w.Recorded)
    (hmay : s.May key (.create .gameServer g))
    (hserves : w.Serves (.create .gameServer g) (.ok b) v) :
    ∃ c, s.read = some c ∧ (v.members key).length ≤ c.spec.replicas.toNat := by
  have hcounts := h.served hw hmay hserves
  obtain ⟨-, -, c, found, hread, hlisted, hroom⟩ := hmay
  exact ⟨c, hread, (hcounts found hlisted).trans hroom⟩

end Course

/-! ## Runs -/

/-- Passes over the collection do not overlap. -/
def Crew.Solo (key : Key) (e : Crew) : Prop :=
  e.tasks.Pairwise fun t u => ¬(t.duty.IsPassOver key ∧ u.duty.IsPassOver key)

theorem Crew.Solo.others {key : Key} {e : Crew} {before after : List Task} {t u : Task}
    (h : e.Solo key) (htasks : e.tasks = before ++ t :: after) (hu : u ∈ before ++ after)
    (hpass : u.duty.IsPassOver key) : ¬t.duty.IsPassOver key := by
  rw [Crew.Solo, htasks, List.pairwise_append, List.pairwise_cons] at h
  obtain ⟨-, ⟨hafter, -⟩, hbefore⟩ := h
  rintro ht
  rcases List.mem_append.1 hu with hu | hu
  · exact hbefore u hu t List.mem_cons_self ⟨hpass, ht⟩
  · exact hafter u hu ⟨ht, hpass⟩

/-- Nothing is served while passes over the collection overlap, and no operator adds members to
it. -/
def Crew.provisioning (key : Key) : Regime where
  begins _ := True
  answers e d _ _ := e.Solo key ∧ ∀ asked, d = .ask asked → ¬asked.Enlists e.world key
  quits _ := True

namespace Chronicle

variable {key : Key} {b c : Chronicle}

/-- While a pass over the collection is at work, whoever else is served is none. -/
theorem not_isPassOver_of_solo {before after : List Diary} {x y : Diary} (hsolo : b.crew.Solo key)
    (hdiaries : b.diaries = before ++ x :: after) (hy : y ∈ before ++ after)
    (hpass : y.task.duty.IsPassOver key) : ¬x.task.duty.IsPassOver key := by
  have htasks : b.crew.tasks = before.map Diary.task ++ x.task :: after.map Diary.task := by
    simp [crew, hdiaries]
  exact hsolo.others htasks (by simpa using List.mem_map_of_mem (f := Diary.task) hy) hpass

/-- Each pass counts right, and no instance that one has made was too many. -/
structure Provided (key : Key) (c : Chronicle) : Prop where
  counts : ∀ x ∈ c.diaries, x.task.duty.IsPassOver key → (Course.of key x.past).Counts key c.world
  made : ∀ d ∈ c.deeds, d.duty.IsPassOver key →
    ∀ g b, d.exchange = ⟨.create .gameServer g, .ok b⟩ →
      ∃ read, (Course.of key d.past).read = some read ∧
        (d.after.members key).length ≤ read.spec.replicas.toNat

theorem Provided.step (h : b.Provided key) (hstep : Step (Crew.provisioning key) b c)
    (hfaithful : c.Faithful (Crew.provisioning key)) : c.Provided key := by
  cases hstep with
  | begin duty hbegins =>
    refine ⟨fun x hx hpass => ?_, h.made⟩
    rcases List.mem_append.1 hx with hx | hx
    · exact h.counts x hx hpass
    · rw [List.mem_singleton.1 hx]
      exact fun found hlisted => by cases hlisted
  | serve before after duty past request next answer w hdiaries hserves hanswers =>
    obtain ⟨hsolo, hask⟩ := hanswers
    have hdeed := hfaithful.deeds _ (List.mem_append_right _ List.mem_cons_self)
    have hpossible := hfaithful.possible duty
    have hw := hdeed.recorded
    have hmem : ⟨⟨duty, .call request next⟩, past⟩ ∈ b.diaries := by simp [hdiaries]
    refine ⟨fun x hx hpass => ?_, fun d hd hpass g a hmade => ?_⟩
    · rcases eq_or_mem_of_mem hx with rfl | hx
      · rw [Course.of_concat]
        exact (h.counts _ hmem hpass).served hw (hdeed.may_course hpossible hpass) hserves
      · have hnot : ¬duty.IsPassOver key := not_isPassOver_of_solo hsolo hdiaries hx hpass
        refine (h.counts x (hdiaries ▸ mem_of_mem_others hx) hpass).of_le ?_
        exact Duty.length_members_le hw (Notes.sound_of hdeed.shown) (hdeed.mayAsk hpossible) hnot
          hask hserves
    · rcases List.mem_append.1 hd with hd | hd
      · exact h.made d hd hpass g a hmade
      · obtain rfl := List.mem_singleton.1 hd
        cases hmade
        exact (h.counts _ hmem hpass).room hw (hdeed.may_course hpossible hpass) hserves
  | leave before after x hdiaries hleft =>
    exact ⟨fun y hy => h.counts y (hdiaries ▸ mem_of_mem_others hy), h.made⟩

/-- No instance that a pass over a collection makes is one too many. When it is made, there are no
more members than the replicas that the pass has read, in every run in which passes over the
collection do not overlap and no one else adds members. -/
theorem provided_of_run {w : World} (hrecorded : w.Recorded)
    (hrun : Run (Crew.provisioning key) (opening w) c) :
    ∀ d ∈ c.deeds, d.duty.IsPassOver key → ∀ g b, d.exchange = ⟨.create .gameServer g, .ok b⟩ →
      ∃ read, (Course.of key d.past).read = some read ∧
        (d.after.members key).length ≤ read.spec.replicas.toNat := by
  suffices hprovided : c.Provided key from hprovided.made
  induction hrun with
  | refl => exact ⟨fun x hx => (by cases hx), fun d hd => (by cases hd)⟩
  | tail hrun hstep ih =>
    exact ih.step hstep (faithful_of_run hrecorded (hrun.tail hstep))

/-- A collection that asks for two replicas and has one. -/
def pair : Collection :=
  Store.newborn .empty Sample.birth (Sample.collection "arena" 2 .remove 1 none)

def half : GameServer := Store.newborn .empty Sample.birth (pair.newMember "arena-a")

def pairWorld : World :=
  ((World.blank (Sample.registry [])).changed .collection (.added pair)).changed .gameServer
    (.added half)

theorem recorded_pairWorld : pairWorld.Recorded :=
  ((World.recorded_blank _).changed (Store.admits_of_create (Store.create_eq rfl))).changed
    (Store.admits_of_create (Store.create_eq rfl))

/-- While a pass makes the member that is missing, an operator deletes the other one. -/
theorem provided_pair :
    ∃ c, Run (Crew.provisioning arenaKey) (opening pairWorld) c ∧
      (∃ d ∈ c.deeds, d.duty.IsPassOver arenaKey ∧
        ∃ g b, d.exchange = ⟨.create .gameServer g, .ok b⟩) ∧
      ∀ d ∈ c.deeds, d.duty.IsPassOver arenaKey →
        ∀ g b, d.exchange = ⟨.create .gameServer g, .ok b⟩ →
          ∃ read, (Course.of arenaKey d.past).read = some read ∧
            (d.after.members arenaKey).length ≤ read.spec.replicas.toNat := by
  have hstart : Run (Crew.provisioning arenaKey) (opening pairWorld) (opening pairWorld) := .refl
  have hpass {e : Crew} {context k request answer} (hsolo : e.Solo arenaKey) :
      (Crew.provisioning arenaKey).answers e (.pass context .collection k) request answer :=
    ⟨hsolo, fun _ h => by cases h⟩
  have halone {w : World} {t : Task} : Crew.Solo arenaKey ⟨w, [t]⟩ := List.pairwise_singleton _ _
  have hbegun := hstart.tail (.begin _ (.pass default .collection arenaKey) trivial)
  have hfound : ∀ a, some pair = some a →
      Resource.key a = arenaKey ∧ pairWorld.Past .collection a := by
    rintro a ⟨⟩
    exact ⟨rfl, 1, by decide, rfl⟩
  have hread := ((hbegun.tail
    (.serve _ [] [] _ _ _ _ _ _ rfl (.cached hfound) (hpass halone))).tail
    (.serve _ [] [] _ _ _ _ _ _ rfl .list (hpass halone))).tail
    (.serve _ [] [] _ _ _ _ _ _ rfl .get (hpass halone))
  have hsummed := hread.tail
    (.serve _ [] [] _ _ _ _ _ _ rfl (.update rfl) (hpass halone))
  have hmeanwhile {w : World} {t : Task} {request : Request} {left : Program Unit} :
      Crew.Solo arenaKey ⟨w, [t, ⟨.ask request, left⟩]⟩ := by
    refine List.pairwise_cons.2 ⟨fun u hu => ?_, List.pairwise_singleton _ _⟩
    obtain rfl := List.mem_singleton.1 hu
    rintro ⟨-, _, ⟨⟩⟩
  have hdeleted := ((hsummed.tail
    (.begin _ (.ask (.delete .gameServer ⟨Sample.ns, "arena-a"⟩)) trivial)).tail
    (.serve _ [_] [] _ _ _ _ _ _ rfl (.delete rfl)
      ⟨hmeanwhile, by rintro _ ⟨⟩; exact id⟩)).tail (.leave _ [_] [] _ rfl (.inl rfl))
  have hallocated := (hdeleted.tail
    (.serve _ [] [] _ _ (.suffix _) _ "b" _ rfl (.harmless trivial) (hpass halone))).tail
    (.serve _ [] [] _ _ _ _ _ _ rfl .allocate (hpass halone))
  have hmade := hallocated.tail (.serve _ [] [] _ _ (.create .gameServer _) _ _ _ rfl
    (@World.Serves.create _ .gameServer Sample.birth _ _ _ rfl) (hpass halone))
  refine ⟨_, hmade, ⟨_, List.mem_append_right _ List.mem_cons_self, ⟨_, rfl⟩, _, _, rfl⟩, ?_⟩
  exact provided_of_run recorded_pairWorld hmade

end Chronicle

end GameFleet
