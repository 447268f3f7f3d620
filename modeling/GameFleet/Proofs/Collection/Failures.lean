import GameFleet.Plane.Sample
import GameFleet.Proofs.Collection.Bounds
import GameFleet.Proofs.Collection.Course

/-!
# The failures that are counted

A pass over a collection detaches or deletes the members that it has listed as failed, one by
one, and then adds their number to the count of failures. It keeps the account when it comes to
the end of that and every member it has counted was still one when it was read : then all passes
together have raised the count by the number of failed members that they have detached or deleted
(`Chronicle.accounted_of_run`). A member that somebody else has detached in the meantime is counted
all the same (`Chronicle.stray_counted`).
-/

namespace GameFleet

open Sample (arenaKey)

/-! ## Accounts -/

instance (key : Key) : DecidablePred (Duty.IsPassOver key)
  | .pass context .collection k =>
    decidable_of_iff (k = key) ⟨fun h => ⟨context, h ▸ rfl⟩, fun ⟨_, h⟩ => by cases h; rfl⟩
  | .pass _ .gameServer _ => .isFalse (by rintro ⟨_, ⟨⟩⟩)
  | .pass _ .autoscaler _ => .isFalse (by rintro ⟨_, ⟨⟩⟩)
  | .report _ _ _ => .isFalse (by rintro ⟨_, ⟨⟩⟩)
  | .cleanUp _ => .isFalse (by rintro ⟨_, ⟨⟩⟩)
  | .release _ => .isFalse (by rintro ⟨_, ⟨⟩⟩)
  | .ask _ => .isFalse (by rintro ⟨_, ⟨⟩⟩)

/-- How many failures are counted of a collection, none if it is not there. -/
def World.timesFailed (w : World) (key : Key) : Int :=
  ((w.stores .collection).get? key).elim 0 fun c => c.status.timesFailed.toNat

theorem World.timesFailed_of_get? {w : World} {key : Key} {c : Collection}
    (h : (w.stores .collection).get? key = some c) :
    w.timesFailed key = c.status.timesFailed.toNat := by
  rw [timesFailed, h]
  rfl

/-- The exchange writes a collection. -/
def Exchange.Writes (x : Exchange) : Prop :=
  ∃ c stored, x = ⟨.update .collection c, .ok stored⟩

namespace Course

/-- The exchange detaches or deletes an instance that was listed as failed. -/
def Handles (s : Course) : Exchange → Prop
  | ⟨.update .gameServer g, .ok _⟩ => Resource.key g ∈ s.failed
  | ⟨.delete .gameServer k, .ok _⟩ => k ∈ s.failed
  | _ => False

instance (s : Course) : DecidablePred s.Handles := fun x => by
  unfold Handles
  split <;> infer_instance

/-- The exchange reads an instance that was listed as failed and is no member any more. -/
def Strays (key : Key) (s : Course) : Exchange → Prop
  | ⟨.get .gameServer _, .ok (some g)⟩ => s.IsStray key g
  | _ => False

instance (key : Key) (s : Course) : DecidablePred (s.Strays key) := fun x => by
  unfold Strays
  split <;> infer_instance

variable {key : Key} {s : Course}

theorem Handles.cases {x : Exchange} (h : s.Handles x) :
    (∃ g b, x = ⟨.update .gameServer g, .ok b⟩ ∧ Resource.key g ∈ s.failed) ∨
      ∃ k, x = ⟨.delete .gameServer k, .ok ()⟩ ∧ k ∈ s.failed := by
  unfold Handles at h
  split at h
  · exact .inl ⟨_, _, rfl, h⟩
  · exact .inr ⟨_, rfl, h⟩
  · exact h.elim

theorem handled_handle (k : Key) :
    (s.handle k).handled = s.handled + if k ∈ s.failed then 1 else 0 := by
  unfold handle
  split <;> rfl

theorem handled_after (x : Exchange) :
    (s.after key x).handled = s.handled + if s.Handles x then 1 else 0 := by
  unfold after
  split
  · rfl
  · rfl
  · rfl
  · rfl
  · rfl
  · exact handled_handle _
  · exact handled_handle _
  · rfl
  · next hupdate hdelete _ =>
    refine (if_neg fun h => ?_).symm ▸ rfl
    rcases h.cases with ⟨g, b, hx, -⟩ | ⟨k, hx, -⟩
    · exact hupdate g b hx
    · exact hdelete k () hx

theorem strays_after {x : Exchange} (h : ¬s.Strays key x) :
    (s.after key x).strays = s.strays := by
  unfold after
  split
  · rfl
  · rfl
  · rfl
  · next k g =>
    have hstray : ¬s.IsStray key g := h
    simp [hstray]
  · rfl
  · next g b =>
    obtain ⟨n, hn⟩ := s.handle_eq (Resource.key g)
    rw [hn]
  · next k u =>
    obtain ⟨n, hn⟩ := s.handle_eq k
    rw [hn]
  · rfl
  · rfl

/-- Only a write of the collection raises the count. -/
theorem raised_after {x : Exchange} (h : ¬x.Writes) : (s.after key x).raised = s.raised := by
  unfold after
  split
  · rfl
  · rfl
  · rfl
  · rfl
  · rfl
  · next g b =>
    obtain ⟨n, hn⟩ := s.handle_eq (Resource.key g)
    rw [hn]
  · next k u =>
    obtain ⟨n, hn⟩ := s.handle_eq k
    rw [hn]
  · exact absurd ⟨_, _, rfl⟩ h
  · rfl

/-- A pass changes collections only when it writes one. -/
theorem May.stores_collection {x : Exchange} {w v : World} (hmay : s.May key x.request)
    (hwrites : ¬x.Writes) (hserves : w.Serves x.request x.answer v) :
    v.stores .collection = w.stores .collection := by
  obtain ⟨request, answer⟩ := x
  cases hserves with
  | @create kind birth a c s hcreate =>
    cases kind with
    | gameServer => exact World.stores_commit_of_ne _ (by decide) _ _
    | _ => exact hmay.elim
  | @update kind a c s hupdate =>
    cases kind with
    | collection => exact absurd ⟨_, _, rfl⟩ hwrites
    | gameServer => exact World.stores_commit_of_ne _ (by decide) _ _
    | _ => exact hmay.elim
  | @delete kind k c s hdelete =>
    cases kind with
    | gameServer => exact World.stores_commit_of_ne _ (by decide) _ _
    | _ => exact hmay.elim
  | _ => rfl

/-- There are no strays where none was read. -/
theorem strays_of {past : List Exchange}
    (h : Exchange.AllFair (fun before x => ¬(of key before).Strays key x) past) :
    (of key past).strays = 0 := by
  induction past using List.reverseRecOn with
  | nil => rfl
  | append_singleton past x ih =>
    obtain ⟨hbefore, hx⟩ := Exchange.allFair_concat.1 h
    rw [of_concat, strays_after hx, ih hbefore]

end Course

namespace Chronicle.Deed

/-- By how much a pass over the collection has raised its count of failures. -/
def raised (key : Key) (d : Deed) : Int :=
  if d.duty.IsPassOver key then d.after.timesFailed key - d.before.timesFailed key else 0

/-- How many failed members a pass over the collection has detached or deleted. -/
def handled (key : Key) (d : Deed) : Int :=
  if d.duty.IsPassOver key ∧ (Course.of key d.past).Handles d.exchange then 1 else 0

end Chronicle.Deed

/-- No one deletes the collection, and passes over it are not given up. -/
def Crew.counting (key : Key) : Regime where
  begins _ := True
  answers _ _ request _ := request ≠ .delete .collection key
  quits d := ¬d.IsPassOver key

namespace Chronicle

/-- Passes over the collection keep their accounts. -/
structure Accountable (key : Key) (c : Chronicle) : Prop where
  /-- What was listed as a failed member is a member still when a pass reads it. -/
  members : ∀ d ∈ c.deeds, d.duty.IsPassOver key → ¬(Course.of key d.past).Strays key d.exchange
  /-- No pass fails when it has detached or deleted a failed member. -/
  whole : ∀ x ∈ c.closed, ∀ context, x.task.duty = .pass context .collection key →
    (Course.of key x.past).handled ≠ 0 →
      ∀ cause, ¬(Pass.collection context key).run.Leads x.past (.done (.error cause))
  /-- The failures that are counted are below what can be counted. -/
  below : ∀ x ∈ c.closed, x.task.duty.IsPassOver key → ∀ old,
    (Course.of key x.past).read = some old →
      old.status.timesFailed.toNat + (Course.of key x.past).handled < UInt32.size

variable {key : Key} {deeds : List Deed} {d : Deed}

/-- The count that a pass writes is the one that it takes note of : a write is let through only if
the collection was read as it is stored. -/
theorem Happened.raised_write (h : Happened deeds d)
    (hpossible : FairTo deeds (fun _ x => x.Possible) d.duty) (hpass : d.duty.IsPassOver key)
    {c stored : Collection} (hwrite : d.exchange = ⟨.update .collection c, .ok stored⟩) :
    (Course.of key (d.past ++ [d.exchange])).raised =
      (Course.of key d.past).raised + (d.after.timesFailed key - d.before.timesFailed key) := by
  have hmay := h.may_course hpossible hpass
  have hserves := h.serves
  rw [Course.of_concat]
  rw [hwrite] at hmay hserves ⊢
  generalize d.after = v at hserves ⊢
  obtain ⟨hkey, read, hread, hwrites⟩ := hmay
  cases hserves with
  | harmless hnone => exact hnone.elim
  | update hupdate =>
    obtain ⟨old, hold, hversion, rfl, rfl⟩ := Store.update_eq_ok hupdate
    have hmeta := hwrites.metadata
    have hfound : (d.before.stores .collection).get? (Resource.key read) = some old := by
      rw [← hold]
      exact congrArg (d.before.stores .collection).get? (congrArg Meta.key hmeta).symm
    obtain rfl : read = old := World.eq_of_past h.recorded (Course.past_of_read h.shown hread)
      hfound ((congrArg Meta.version hmeta).symm.trans hversion.symm)
    rw [hkey] at hold
    change _ = _ + ((d.before.changed .collection (.updated read _)).timesFailed key - _)
    rw [World.timesFailed_of_get? hold,
      World.timesFailed_of_get? (d.before.get?_updated .collection hkey)]
    simp only [Course.after, hread, Option.elim_some]
    rfl

/-- A pass raises the count by what it takes note of. -/
theorem Happened.raised_eq (h : Happened deeds d)
    (hpossible : FairTo deeds (fun _ x => x.Possible) d.duty) (hpass : d.duty.IsPassOver key) :
    (Course.of key (d.past ++ [d.exchange])).raised =
      (Course.of key d.past).raised + (d.after.timesFailed key - d.before.timesFailed key) := by
  by_cases hwrite : d.exchange.Writes
  · obtain ⟨c, stored, hwrite⟩ := hwrite
    exact h.raised_write hpossible hpass hwrite
  · have hstores := (h.may_course hpossible hpass).stores_collection hwrite h.serves
    rw [Course.of_concat, Course.raised_after hwrite, World.timesFailed, World.timesFailed, hstores]
    omega

/-! ## What a pass is aware of -/

variable {b c : Chronicle} {past : List Exchange} {w v : World}

/-- A pass has read the collection before it deals with a failed member, and what it has read is
there still. -/
structure Aware (key : Key) (past : List Exchange) (w : World) : Prop where
  stored : (Course.of key past).read.isSome → ((w.stores .collection).get? key).isSome
  read : (Course.of key past).handled ≠ 0 → (Course.of key past).read.isSome

theorem Aware.mono (h : Aware key past w)
    (hstored : ((w.stores .collection).get? key).isSome →
      ((v.stores .collection).get? key).isSome) :
    Aware key past v :=
  ⟨fun hread => hstored (h.stored hread), h.read⟩

/-- The collection stays, as nobody deletes it. -/
theorem isSome_stored {request : Request} {answer : request.Answer} (hw : w.Recorded)
    (hserves : w.Serves request answer v) (hkept : request ≠ .delete .collection key)
    (h : ((w.stores .collection).get? key).isSome) :
    ((v.stores .collection).get? key).isSome := by
  obtain ⟨a, ha⟩ := Option.isSome_iff_exists.1 h
  rcases World.stored_cases hw ha hserves with h | ⟨b, -, -, -, h⟩ | h
  · rw [h]; rfl
  · rw [h]; rfl
  · exact absurd h hkept

theorem Happened.aware (h : Happened deeds d)
    (hpossible : FairTo deeds (fun _ x => x.Possible) d.duty) (hpass : d.duty.IsPassOver key)
    (hkept : d.exchange.request ≠ .delete .collection key) (haware : Aware key d.past d.before) :
    Aware key (d.past ++ [d.exchange]) d.after := by
  have hmay := h.may_course hpossible hpass
  obtain ⟨-, -, -, hw, hserves⟩ := h
  obtain ⟨duty, past, x, w, v⟩ := d
  have hstays := isSome_stored hw hserves hkept
  have hdeals (hhandles : (Course.of key past).Handles x) : (Course.of key past).read.isSome := by
    rcases hhandles.cases with ⟨g, b, rfl, -⟩ | ⟨k, rfl, -⟩
    · exact hmay.1
    · exact hmay.1
  have hread (hhandled : (Course.of key (past ++ [x])).handled ≠ 0) :
      (Course.of key past).read.isSome := by
    rw [Course.of_concat, Course.handled_after] at hhandled
    by_cases hhandles : (Course.of key past).Handles x
    · exact hdeals hhandles
    · exact haware.read (by simpa [hhandles] using hhandled)
  rcases (Course.of key past).read_after x with hsame | ⟨k, found, rfl, hfound⟩
  · constructor
    · rw [Course.of_concat, hsame]
      exact fun hsome => hstays (haware.stored hsome)
    · intro hhandled
      rw [Course.of_concat, hsame]
      exact hread hhandled
  · obtain rfl : k = key := hmay
    have hgot := hfound.trans (World.eq_get?_of_get hserves)
    constructor
    · rw [Course.of_concat, hgot]
      exact hstays
    · intro hhandled
      rw [Course.of_concat, hgot]
      exact haware.stored (hread hhandled)

/-- All passes over the collection are aware of it, also those that have ended. -/
structure Watchful (key : Key) (c : Chronicle) : Prop where
  diaries : ∀ x ∈ c.diaries, x.task.duty.IsPassOver key → Aware key x.past c.world
  closed : ∀ x ∈ c.closed, x.task.duty.IsPassOver key → (Course.of key x.past).handled ≠ 0 →
    (Course.of key x.past).read.isSome

theorem Watchful.step (h : b.Watchful key) (hstep : Step (Crew.counting key) b c)
    (hfaithful : c.Faithful (Crew.counting key)) : c.Watchful key := by
  cases hstep with
  | begin duty hbegins =>
    refine ⟨fun x hx hpass => ?_, h.closed⟩
    rcases List.mem_append.1 hx with hx | hx
    · exact h.diaries x hx hpass
    · rw [List.mem_singleton.1 hx]
      exact ⟨fun hread => (by cases hread), fun hhandled => absurd rfl hhandled⟩
  | serve before after duty past request next answer w hdiaries hserves hanswers =>
    have hdeed := hfaithful.deeds _ (List.mem_append_right _ List.mem_cons_self)
    have hmem : ⟨⟨duty, .call request next⟩, past⟩ ∈ b.diaries := by simp [hdiaries]
    refine ⟨fun x hx hpass => ?_, h.closed⟩
    rcases eq_or_mem_of_mem hx with rfl | hx
    · exact hdeed.aware (hfaithful.possible duty) hpass hanswers (h.diaries _ hmem hpass)
    · exact (h.diaries x (hdiaries ▸ mem_of_mem_others hx) hpass).mono
        (isSome_stored hdeed.recorded hserves hanswers)
  | leave before after x hdiaries hleft =>
    refine ⟨fun y hy => h.diaries y (hdiaries ▸ mem_of_mem_others hy), fun y hy hpass => ?_⟩
    rcases List.mem_append.1 hy with hy | hy
    · exact h.closed y hy hpass
    · obtain rfl := List.mem_singleton.1 hy
      exact (h.diaries _ (by simp [hdiaries]) hpass).read

theorem watchful_of_run {w : World} (hw : w.Recorded)
    (hrun : Run (Crew.counting key) (opening w) c) : c.Watchful key := by
  induction hrun with
  | refl => exact ⟨fun x hx => (by cases hx), fun x hx => (by cases hx)⟩
  | tail hrun hstep ih => exact ih.step hstep (faithful_of_run hw (hrun.tail hstep))

/-! ## Settled accounts -/

/-- A pass that has left has raised the count by the failed members that it has dealt with. -/
theorem raised_eq_handled {x : Diary} (hfaithful : c.Faithful (Crew.counting key))
    (hwatchful : c.Watchful key) (haccount : c.Accountable key) (hx : x ∈ c.closed)
    (hpass : x.task.duty.IsPassOver key) :
    (Course.of key x.past).raised = (Course.of key x.past).handled := by
  obtain ⟨⟨hleads, hattested⟩, hleft⟩ := hfaithful.closed x hx
  have hdone : x.task.left = .done () := hleft.resolve_right (not_not_intro hpass)
  obtain ⟨context, hduty⟩ := hpass
  have hpass : x.task.duty.IsPassOver key := ⟨context, hduty⟩
  have hstrays : (Course.of key x.past).strays = 0 := by
    refine Course.strays_of (hattested.allFair fun d hd hd' => ?_)
    exact haccount.members d hd (hd' ▸ hpass)
  rw [hdone, hduty] at hleads
  obtain ⟨r, hr⟩ := hleads.of_discard
  have hends : Program.Ends (fun _ t => t.Concluded) (fun _ t => t.raised = 0) r
      (Course.of key x.past) :=
    hr.keeps Course.keeps_collection (hattested.allFair (hfaithful.possible _))
  have hunread (hnone : (Course.of key x.past).read = none) :
      (Course.of key x.past).handled = 0 := by
    by_contra hhandled
    have hread := hwatchful.closed x hx hpass hhandled
    rw [hnone] at hread
    cases hread
  cases r with
  | error cause =>
    have hhandled : (Course.of key x.past).handled = 0 := by
      by_contra hhandled
      exact haccount.whole x hx context hduty hhandled cause hr
    have hraised : (Course.of key x.past).raised = 0 := hends
    rw [hraised, hhandled]
    rfl
  | ok u =>
    rcases hends with ⟨hraised, hnone | hnone⟩ | ⟨old, hread, hraised⟩
    · omega
    · rw [hraised, hunread hnone]
      rfl
    · have hbelow := haccount.below x hx hpass old hread
      rw [hraised, hstrays, Nat.add_zero, Pass.countFailures, Collection.toNat_countOf]
      omega

/-- What a pass over the collection has come to, and nothing for other duties. -/
def share (key : Key) (f : Course → Int) (duty : Duty) (past : List Exchange) : Int :=
  if duty.IsPassOver key then f (Course.of key past) else 0

theorem sum_raised {w : World} (hw : w.Recorded) (hrun : Run (Crew.counting key) (opening w) c) :
    (c.deeds.map (Deed.raised key)).sum =
      ((c.diaries ++ c.closed).map fun x =>
        share key Course.raised x.task.duty x.past).sum := by
  have hfaithful := faithful_of_run hw hrun
  refine sum_deeds hrun (fun duty => ?_) fun d hd => ?_
  · exact ite_self _
  · unfold share Deed.raised
    split
    · next hpass => exact (hfaithful.deeds d hd).raised_eq (hfaithful.possible _) hpass
    · rfl

theorem sum_handled {R : Regime} {w : World} (hrun : Run R (opening w) c) :
    (c.deeds.map (Deed.handled key)).sum =
      ((c.diaries ++ c.closed).map fun x =>
        share key (fun s => s.handled) x.task.duty x.past).sum := by
  refine sum_deeds hrun (fun duty => ite_self _) fun d _ => ?_
  unfold share Deed.handled
  by_cases hpass : d.duty.IsPassOver key
  · simp only [hpass, if_true, true_and, Course.of_concat, Course.handled_after]
    split <;> simp
  · simp [hpass]

/-- All passes over a collection together have raised its count of failures by the number of
failed members that they have detached or deleted, whenever none of them is at work : in every run
in which no one deletes the collection and the passes over it keep their accounts. -/
theorem accounted_of_run {w : World} (hrecorded : w.Recorded)
    (hrun : Run (Crew.counting key) (opening w) c) (haccount : c.Accountable key)
    (hidle : ∀ x ∈ c.diaries, ¬x.task.duty.IsPassOver key) :
    (c.deeds.map (Deed.raised key)).sum = (c.deeds.map (Deed.handled key)).sum := by
  have hfaithful := faithful_of_run hrecorded hrun
  have hwatchful := watchful_of_run hrecorded hrun
  rw [sum_raised hrecorded hrun, sum_handled hrun]
  refine congrArg List.sum (List.map_congr_left fun x hx => ?_)
  by_cases hpass : x.task.duty.IsPassOver key
  · have hclosed : x ∈ c.closed := (List.mem_append.1 hx).resolve_left fun h => hidle x h hpass
    rw [share, share, if_pos hpass, if_pos hpass]
    exact raised_eq_handled hfaithful hwatchful haccount hclosed hpass
  · rw [share, share, if_neg hpass, if_neg hpass]

/-! ## A failed member -/

/-- A collection of one replica that detaches members which fail. -/
def frail : Collection :=
  Store.newborn .empty Sample.birth (Sample.collection "arena" 1 .remove 5 none)

def frailMember : GameServer :=
  let g := frail.newMember "arena-a"
  Store.newborn .empty Sample.birth { g with status := { g.status with health := .failed } }

def frailWorld : World :=
  ((World.blank (Sample.registry [])).changed .collection (.added frail)).changed .gameServer
    (.added frailMember)

theorem recorded_frailWorld : frailWorld.Recorded :=
  ((World.recorded_blank _).changed (Store.admits_of_create (Store.create_eq rfl))).changed
    (Store.admits_of_create (Store.create_eq rfl))

theorem frail_found (a : Collection) (h : some frail = some a) :
    Resource.key a = arenaKey ∧ frailWorld.Past .collection a := by
  cases h
  exact ⟨rfl, 1, by decide, rfl⟩

/-- A pass that detaches a failed member and counts it. -/
theorem accounted_frail :
    ∃ c, Run (Crew.counting arenaKey) (opening frailWorld) c ∧
      (c.Accountable arenaKey ∧ (∀ x ∈ c.diaries, ¬x.task.duty.IsPassOver arenaKey) ∧
        (c.deeds.map (Deed.handled arenaKey)).sum = 1) ∧
      (c.deeds.map (Deed.raised arenaKey)).sum = (c.deeds.map (Deed.handled arenaKey)).sum := by
  have hstart : Run (Crew.counting arenaKey) (opening frailWorld) (opening frailWorld) := .refl
  have hbegun := hstart.tail (.begin _ (.pass default .collection arenaKey) trivial)
  have hsummed := (((hbegun.tail
    (.serve _ [] [] _ _ _ _ _ _ rfl (.cached frail_found) nofun)).tail
    (.serve _ [] [] _ _ _ _ _ _ rfl .list nofun)).tail
    (.serve _ [] [] _ _ _ _ _ _ rfl .get nofun)).tail
    (.serve _ [] [] _ _ _ _ _ _ rfl (.update rfl) nofun)
  have hdetached := (hsummed.tail
    (.serve _ [] [] _ _ _ _ _ _ rfl .get nofun)).tail
    (.serve _ [] [] _ _ _ _ _ _ rfl (.update rfl) nofun)
  have hcounted := ((hdetached.tail
    (.serve _ [] [] _ _ _ _ _ _ rfl .get nofun)).tail
    (.serve _ [] [] _ _ _ _ _ _ rfl (.update rfl) nofun)).tail
    (.serve _ [] [] _ _ (.record _) _ () _ rfl (.harmless trivial) nofun)
  have hdone := hcounted.tail (.leave _ [] [] _ rfl (.inl rfl))
  refine ⟨_, hdone, ⟨?account, ?idle, ?sum⟩,
    accounted_of_run recorded_frailWorld hdone ?account ?idle⟩
  case idle => exact fun x hx => by cases hx
  case sum => decide +kernel
  case account =>
    refine ⟨by decide +kernel, fun x hx context hduty _ cause hleads => ?_,
      fun x hx _ old hold => ?_⟩
    · obtain rfl := List.mem_singleton.1 hx
      cases hduty
      -- The diary leads to the end of the pass, and there is no other way.
      have hends : Program.done (Except.error cause) = .done (Except.ok ()) := hleads.eq
        (.cons (.cons (.cons (.cons (.cons (.cons (.cons (.cons (.cons (.nil _))))))))))
      cases hends
    · obtain rfl := List.mem_singleton.1 hx
      cases hold
      decide +kernel

/-- The member when it was detached. -/
def frailStray : GameServer := (Pass.detach "arena" frailMember).getD frailMember

/-- A failed member that an operator detaches after the pass has listed it, and before it has read
it : the pass counts it, and has neither detached nor deleted it. -/
theorem stray_counted :
    ∃ c, Run (Crew.counting arenaKey) (opening frailWorld) c ∧ c.diaries = [] ∧
      (c.deeds.map (Deed.raised arenaKey)).sum = 1 ∧
      (c.deeds.map (Deed.handled arenaKey)).sum = 0 := by
  have hstart : Run (Crew.counting arenaKey) (opening frailWorld) (opening frailWorld) := .refl
  have hbegun := hstart.tail (.begin _ (.pass default .collection arenaKey) trivial)
  have hsummed := (((hbegun.tail
    (.serve _ [] [] _ _ _ _ _ _ rfl (.cached frail_found) nofun)).tail
    (.serve _ [] [] _ _ _ _ _ _ rfl .list nofun)).tail
    (.serve _ [] [] _ _ _ _ _ _ rfl .get nofun)).tail
    (.serve _ [] [] _ _ _ _ _ _ rfl (.update rfl) nofun)
  have hstray := ((hsummed.tail
    (.begin _ (.ask (.update .gameServer frailStray)) trivial)).tail
    (.serve _ [_] [] _ _ _ _ _ _ rfl (.update rfl) nofun)).tail
    (.leave _ [_] [] _ rfl (.inl rfl))
  have hcounted := (((hstray.tail
    (.serve _ [] [] _ _ _ _ _ _ rfl .get nofun)).tail
    (.serve _ [] [] _ _ _ _ _ _ rfl .get nofun)).tail
    (.serve _ [] [] _ _ _ _ _ _ rfl (.update rfl) nofun)).tail
    (.serve _ [] [] _ _ (.record _) _ () _ rfl (.harmless trivial) nofun)
  have hdone := hcounted.tail (.leave _ [] [] _ rfl (.inl rfl))
  exact ⟨_, hdone, rfl, by decide +kernel, by decide +kernel⟩

end Chronicle

end GameFleet
