import GameFleet.Plane.Sample
import GameFleet.Proofs.Collection.Writers

/-!
# The need for intervention stays

A collection that needs intervention, its failures having reached the limit, stays so as long
as no operator writes it, whatever passes and reports run beside each other
(`Crew.stuck_of_run`). A pass over it that begins then finds it so whenever it reads it, so it
writes nothing but the rest of the status, and leaves the members alone (`Standstill`). A pass
over its autoscaler that has seen it before loses the race, since it has seen a version that is
not stored any more.
-/

namespace GameFleet

open Sample (arenaKey)

/-- The request writes an object of the kind. -/
def Request.Writes (kind : Kind) : Request → Prop
  | .create other _ => other = kind
  | .update other _ => other = kind
  | .delete other _ => other = kind
  | _ => False

/-- The request writes this collection. -/
def Request.WritesCollection (key : Key) : Request → Prop
  | .create .collection a => Resource.key a = key
  | .update .collection a => Resource.key a = key
  | .delete .collection k => k = key
  | _ => False

/-- An operator writes this collection. -/
def Duty.IsWriteTo (key : Key) (d : Duty) : Prop :=
  ∃ request, d = .ask request ∧ request.WritesCollection key

/-- The collection has this spec, and needs intervention after so many failures. -/
structure Collection.Stuck (spec : CollectionSpec) (times : UInt32) (c : Collection) : Prop where
  spec : c.spec = spec
  health : c.status.health = .needsIntervention
  times : c.status.timesFailed = times

/-! ## Passes that change nothing -/

namespace Standstill

/-- Members are left alone, and the collection is written as one that is stuck. -/
def May (spec : CollectionSpec) (times : UInt32) : Request → Prop
  | .create .collection _ => False
  | .update .collection a => a.Stuck spec times
  | .delete .collection _ => False
  | .create .gameServer _ => False
  | .update .gameServer _ => False
  | .delete .gameServer _ => False
  | _ => True

/-- The collection is found stuck. -/
def Tells (spec : CollectionSpec) (times : UInt32) (key : Key) :
    (request : Request) → request.Answer → Prop
  | .get .collection k, .ok (some c) => k = key → c.Stuck spec times
  | .update .collection _, .ok b => b.Stuck spec times
  | _, _ => True

/-- What is asked of a pass over a collection that is stuck. -/
def contract (spec : CollectionSpec) (times : UInt32) (key : Key) : Contract Notes where
  may _ := May spec times
  next s request answer t := request.Tells answer ∧ Tells spec times key request answer ∧ t = s

variable {α : Type} {spec : CollectionSpec} {times : UInt32} {key : Key} {s : Notes}

/-- A collection that is found stuck is written as one. -/
theorem keeps_modify {retry : Retry} {change : Collection → Option Collection}
    (h : ∀ c b, c.Stuck spec times → change c = some b →
      b.Stuck spec times ∧ Resource.key b = Resource.key c) :
    (Pass.access (.modify retry .collection key change)).run.Keeps (contract spec times key)
      (Program.Ends (fun r _ => ∀ c, r = some c → Collection.Stuck spec times c ∧
        Resource.key c = key) fun _ _ => True) s := by
  suffices hchanges : Access.Changes (contract spec times key) .collection key change
      (fun _ => True) (fun c _ => Collection.Stuck spec times c ∧ Resource.key c = key) _ from
    Pass.keeps_access (hchanges.keeps retry trivial)
  constructor
  case get => exact fun _ => trivial
  case missing => exact fun _ _ c hc => by cases hc
  case found => exact fun _ ht => ⟨ht.2.1 rfl, ht.1⟩
  case failed => exact fun _ _ => ⟨trivial, fun _ => trivial⟩
  case left => exact fun hc _ b hb => Option.some.inj hb ▸ hc
  case update => exact fun hc hb => (h _ _ hc.1 hb).1
  case written =>
    rintro c b t b' u ⟨hc, hkey⟩ hb hu a ha
    obtain rfl := Option.some.inj ha
    exact ⟨hu.2.1, hu.1.trans ((h c b hc hb).2.trans hkey)⟩
  case refused => exact fun _ _ _ => ⟨trivial, fun _ => trivial⟩
  case pause => exact fun _ => trivial
  case paused => exact fun _ _ => trivial

theorem thresholdReached (hreached : spec.maxFailures ≤ times) {c : Collection}
    (h : c.Stuck spec times) : c.thresholdReached = true := by
  simpa [Collection.thresholdReached, h.spec, h.times] using hreached

/-- The status may be summed up, but for the need for intervention. -/
theorem change_stuck (hreached : spec.maxFailures ≤ times) {summary : Pass.Summary}
    {c b : Collection} (h : c.Stuck spec times) (hb : summary.change c = some b) :
    b.Stuck spec times ∧ Resource.key b = Resource.key c := by
  have hfor : summary.healthFor c = .needsIntervention :=
    if_pos ⟨h.health, thresholdReached hreached h⟩
  obtain rfl := Pass.Summary.eq_of_change hb
  exact ⟨⟨h.spec, hfor, h.times⟩, rfl⟩

theorem intervene_eq_none {c : Collection} (h : c.Stuck spec times) : Pass.intervene c = none :=
  if_pos h.health

theorem keeps_escalate {c : Collection} (h : c.Stuck spec times) (hkey : Resource.key c = key)
    (context : PassContext) :
    (Pass.escalate context c).run.Keeps (contract spec times key)
      (Program.Ends (fun _ _ => True) fun _ _ => True) s := by
  unfold Pass.escalate
  rw [hkey]
  refine (keeps_modify fun b b' hb hb' => ?_).bindExcept fun updated t _ => ?_
  · rw [intervene_eq_none hb] at hb'
    cases hb'
  · simp only [h.health, ne_eq, not_true_eq_false, false_and, if_false]
    trivial

/-- A pass over a collection that is stuck stands still. -/
theorem keeps_collection (hreached : spec.maxFailures ≤ times) (context : PassContext) :
    (Pass.collection context key).run.Keeps (contract spec times key)
      (Program.Ends (fun _ _ => True) fun _ _ => True) s := by
  have hcached : (Pass.cached .collection key).run.Keeps (contract spec times key)
      (Program.Ends (fun _ _ => True) fun _ _ => True) s :=
    ⟨trivial, fun answer t _ => by cases answer <;> trivial⟩
  refine hcached.bindExcept fun found t _ => ?_
  cases found with
  | none => trivial
  | some seen =>
    simp only
    split
    · trivial
    have hlisted : (Pass.access (.list .gameServer seen.metadata.ns seen.memberSelector)).run.Keeps
        (contract spec times key) (Program.Ends (fun _ _ => True) fun _ _ => True) t :=
      ⟨trivial, fun answer u _ => by cases answer <;> trivial⟩
    refine hlisted.bindExcept fun members u _ => ?_
    refine (keeps_modify fun c b => change_stuck hreached).bindExcept fun updated v hfound => ?_
    cases updated with
    | none => trivial
    | some c =>
      obtain ⟨hc, hkey⟩ := hfound c rfl
      simp only
      split
      · rw [Pass.handleFailures, if_pos (thresholdReached hreached hc)]
        exact keeps_escalate hc hkey context
      · rw [if_pos hc.health]
        trivial

end Standstill

/-! ## Writers -/

section

variable {spec : CollectionSpec} {times : UInt32} {key : Key} {w v : World} {d : Duty} {s : Notes}
  {c : Collection} {request : Request} {answer : request.Answer}

/-- Who has seen the collection when it was well loses the race. -/
theorem World.ne_of_seen (hw : w.Recorded) (hc : (w.stores .collection).get? key = some c)
    (hstuck : c.Stuck spec times) {old : Collection} (hold : w.Past .collection old)
    (hkey : Resource.key old = key) (hhealth : old.status.health ≠ .needsIntervention) :
    Resource.version old ≠ Resource.version c := by
  intro hversion
  have heq : old = c := World.eq_of_past hw hold (hkey.symm ▸ hc) hversion
  exact hhealth (heq ▸ hstuck.health)

/-- No task but a pass over the collection writes it, and no operator is let. -/
theorem Duty.stored_of_may (hw : w.Recorded) (hc : (w.stores .collection).get? key = some c)
    (hstuck : c.Stuck spec times) (hs : s.Sound w) (hpass : ¬d.IsPassOver key)
    (hask : ¬d.IsWriteTo key) (hmay : d.May s request) (hserves : w.Serves request answer v) :
    (v.stores .collection).get? key = some c := by
  rcases World.stored_cases hw hc hserves with h | ⟨a, rfl, hkey, hversion, -⟩ | rfl
  · exact h
  · cases d with
    | pass context r k =>
      cases r with
      | gameServer => exact hmay.elim
      | collection =>
        obtain ⟨old, -, hold, hmeta, -⟩ := hmay
        obtain rfl : k = key := by rw [← hold, ← hkey]; exact (congrArg Meta.key hmeta).symm
        exact absurd ⟨context, rfl⟩ hpass
      | autoscaler =>
        obtain ⟨old, hold, auto, step, now, hk, hsteady, -, -, rfl⟩ := hmay
        -- It steps from a collection that was steady, and the stored one is not.
        have hhealth : old.status.health ≠ .needsIntervention := fun hneeds => by
          simp [Pass.isSteady, hneeds] at hsteady
        have hne : Resource.version old ≠ Resource.version c :=
          World.ne_of_seen hw hc hstuck (hs.looked old hold) hkey hhealth
        exact absurd hversion hne
    | ask request =>
      obtain rfl : request = _ := hmay
      exact absurd ⟨_, rfl, hkey⟩ hask
    | _ => exact hmay.elim
  · obtain rfl : d = _ := hmay
    exact absurd ⟨_, rfl, rfl⟩ hask

/-- A pass over the collection writes it as one that is stuck. -/
theorem Standstill.stored_of_may (hw : w.Recorded)
    (hc : (w.stores .collection).get? key = some c) (hstuck : c.Stuck spec times)
    (hmay : May spec times request) (hserves : w.Serves request answer v) :
    ∃ c', (v.stores .collection).get? key = some c' ∧ c'.Stuck spec times := by
  rcases World.stored_cases hw hc hserves with h | ⟨a, rfl, -, -, h⟩ | rfl
  · exact ⟨c, h, hstuck⟩
  · obtain ⟨hspec, hhealth, htimes⟩ := hmay
    exact ⟨_, h, hspec, hhealth, htimes⟩
  · exact hmay.elim

/-- What a pass over the collection reads is stuck. -/
theorem Standstill.tells_of_serves (hc : (w.stores .collection).get? key = some c)
    (hstuck : c.Stuck spec times) (hmay : May spec times request)
    (hserves : w.Serves request answer v) : Tells spec times key request answer := by
  unfold Tells
  split
  · rintro rfl
    have hfound := World.eq_get?_of_get hserves
    rw [hc] at hfound
    exact Option.some.inj hfound ▸ hstuck
  · cases hserves with
    | harmless h => exact h.elim
    | update h =>
      obtain ⟨old, -, -, rfl, -⟩ := Store.update_eq_ok h
      obtain ⟨hspec, hhealth, htimes⟩ := hmay
      exact ⟨hspec, hhealth, htimes⟩
  · trivial

end

/-! ## Runs -/

namespace Crew

/-- Whatever begins, no operator writes this collection. -/
def handsOff (key : Key) : Regime :=
  ⟨fun d => ¬d.IsWriteTo key, fun _ _ _ _ => True, fun _ => True⟩

/-- Tasks note what they are shown, and keep to their duty. -/
def custody : Discipline .anything where
  Knowledge := Notes
  contract := Duty.custody
  sound w _ s := s.Sound w
  holds := World.Recorded
  begins _ _ := ⟨.empty, Notes.sound_empty _, Duty.keeps _⟩
  served hw hsound _ hserves _ :=
    ⟨hserves.recorded hw, _, ⟨hserves.tells hw, rfl⟩, hsound.served hw hserves⟩
  others _ hserves hsound := hsound.mono hserves.logs

end Crew

/-- The contract of a duty while a collection is stuck. -/
def Duty.standstill (spec : CollectionSpec) (times : UInt32) (key : Key) : Duty → Contract Notes
  | .pass context .collection k =>
    if k = key then Standstill.contract spec times key
    else (Duty.pass context .collection k).custody
  | d => d.custody

theorem Duty.standstill_of_not {spec : CollectionSpec} {times : UInt32} {key : Key} {d : Duty}
    (h : ¬d.IsPassOver key) : d.standstill spec times key = d.custody := by
  unfold standstill
  split
  · next context k =>
    split
    · next hk => exact absurd ⟨context, by rw [hk]⟩ h
    · rfl
  · rfl

theorem Duty.standstill_of_isPassOver {spec : CollectionSpec} {times : UInt32} {key : Key}
    {d : Duty} (h : d.IsPassOver key) :
    d.standstill spec times key = Standstill.contract spec times key := by
  obtain ⟨context, rfl⟩ := h
  exact if_pos rfl

namespace Crew

/-- A collection that is stuck stays so, and no operator is at it. -/
def standstill {spec : CollectionSpec} {times : UInt32} (hreached : spec.maxFailures ≤ times)
    (key : Key) : Discipline (handsOff key) where
  Knowledge := Notes
  contract := Duty.standstill spec times key
  sound w d s := s.Sound w ∧ ¬d.IsWriteTo key
  holds w := w.Recorded ∧ ∃ c, (w.stores .collection).get? key = some c ∧ c.Stuck spec times
  begins {w d} _ hask := by
    refine ⟨.empty, ⟨Notes.sound_empty w, hask⟩, ?_⟩
    by_cases hpass : d.IsPassOver key
    · rw [Duty.standstill_of_isPassOver hpass]
      obtain ⟨context, rfl⟩ := hpass
      exact (Standstill.keeps_collection hreached context).bind fun _ _ _ => trivial
    · rw [Duty.standstill_of_not hpass]
      exact d.keeps
  served {e v d s request answer} hholds hsound hmay hserves _ := by
    obtain ⟨hw, c, hc, hstuck⟩ := hholds
    obtain ⟨hs, hask⟩ := hsound
    by_cases hpass : d.IsPassOver key
    · rw [Duty.standstill_of_isPassOver hpass] at hmay ⊢
      refine ⟨⟨hserves.recorded hw, Standstill.stored_of_may hw hc hstuck hmay hserves⟩, s, ?_, ?_⟩
      · exact ⟨hserves.tells hw, Standstill.tells_of_serves hc hstuck hmay hserves, rfl⟩
      · exact ⟨hs.mono hserves.logs, hask⟩
    · rw [Duty.standstill_of_not hpass] at hmay ⊢
      have hstored := Duty.stored_of_may hw hc hstuck hs hpass hask hmay hserves
      exact ⟨⟨hserves.recorded hw, c, hstored, hstuck⟩, _, ⟨hserves.tells hw, rfl⟩,
        hs.served hw hserves, hask⟩
  others _ hserves hsound := ⟨hsound.1.mono hserves.logs, hsound.2⟩

/-- A collection that needs intervention with its failures at the limit goes on to need it, with
the same count of failures and the same spec, as long as no operator writes it. A pass over it
that begins leaves all instances alone. At first there may be programs of all sorts in the middle
of something, apart from passes over the collection and writes of operators to it. -/
theorem stuck_of_run {start e f : Crew} {key : Key} {c : Collection}
    (hrecorded : start.world.Recorded) (hidle : start.tasks = []) (hbefore : Run .anything start e)
    (hstored : (e.world.stores .collection).get? key = some c)
    (hhealth : c.status.health = .needsIntervention)
    (hreached : c.spec.maxFailures ≤ c.status.timesFailed)
    (hpasses : ∀ t ∈ e.tasks, ¬t.duty.IsPassOver key)
    (hoperators : ∀ t ∈ e.tasks, ¬t.duty.IsWriteTo key) (hrun : Run (handsOff key) e f) :
    (∃ c', (f.world.stores .collection).get? key = some c' ∧
      c'.status.health = .needsIntervention ∧ c'.status.timesFailed = c.status.timesFailed ∧
      c'.spec = c.spec) ∧
    ∀ t ∈ f.tasks, t.duty.IsPassOver key →
      ∀ request next, t.left = .call request next → ¬request.Writes .gameServer := by
  have hkept : custody.Kept start := ⟨hrecorded, fun t ht => by rw [hidle] at ht; cases ht⟩
  obtain ⟨hw, htasks⟩ := hkept.run hbefore
  have hstuck : (standstill hreached key).Kept e := by
    refine ⟨⟨hw, c, hstored, rfl, hhealth, rfl⟩, fun t ht => ?_⟩
    obtain ⟨s, hs, hkeeps⟩ := htasks t ht
    refine ⟨s, ⟨hs, hoperators t ht⟩, ?_⟩
    change t.left.Keeps (t.duty.standstill c.spec c.status.timesFailed key) _ s
    rwa [Duty.standstill_of_not (hpasses t ht)]
  obtain ⟨⟨-, c', hc', hspec, hhealth', htimes⟩, htasks'⟩ := hstuck.run hrun
  refine ⟨⟨c', hc', hhealth', htimes, hspec⟩, fun t ht hpass request next hleft hwrites => ?_⟩
  obtain ⟨s, -, hkeeps⟩ := htasks' t ht
  simp only [standstill, Duty.standstill_of_isPassOver hpass] at hkeeps
  rw [hleft] at hkeeps
  have hmay : Standstill.May c.spec c.status.timesFailed request := hkeeps.1
  cases request with
  | create kind a =>
    obtain rfl : kind = .gameServer := hwrites
    exact hmay
  | update kind a =>
    obtain rfl : kind = .gameServer := hwrites
    exact hmay
  | delete kind k =>
    obtain rfl : kind = .gameServer := hwrites
    exact hmay
  | _ => exact hwrites

/-- A collection that has failed as often as it may. -/
def worn : Collection :=
  let c := Sample.collection "arena" 2 .remove 1 none
  Store.newborn .empty Sample.birth
    { c with status := { c.status with health := .needsIntervention, timesFailed := 1 } }

/-- A member of it that has failed. -/
def wornMember : GameServer :=
  let g := worn.newMember "arena-old"
  Store.newborn .empty Sample.birth { g with status := { g.status with health := .failed } }

def wornWorld : World :=
  ((World.blank (Sample.registry [])).changed .collection (.added worn)).changed .gameServer
    (.added wornMember)

theorem recorded_wornWorld : wornWorld.Recorded :=
  ((World.recorded_blank _).changed (Store.admits_of_create (Store.create_eq rfl))).changed
    (Store.admits_of_create (Store.create_eq rfl))

/-- A pass that finds a failed member sums it up, and does not deal with it. -/
theorem stuck_summed :
    ∃ f, Run (handsOff arenaKey) ⟨wornWorld, []⟩ f ∧
      (f.world.logs .collection).length = 2 ∧
      (∃ c', (f.world.stores .collection).get? arenaKey = some c' ∧
        c'.status.health = .needsIntervention ∧ c'.status.timesFailed = worn.status.timesFailed ∧
        c'.spec = worn.spec) ∧
      ∀ t ∈ f.tasks, t.duty.IsPassOver arenaKey →
        ∀ request next, t.left = .call request next → ¬request.Writes .gameServer := by
  have hstart : Run (handsOff arenaKey) ⟨wornWorld, []⟩ ⟨wornWorld, []⟩ := .refl
  have hbegun := hstart.tail (.begin _ (.pass default .collection arenaKey)
    (by rintro ⟨request, hask, -⟩; cases hask))
  have hfound : ∀ a, (wornWorld.stores .collection).get? arenaKey = some a →
      Resource.key a = arenaKey ∧ wornWorld.Past .collection a := by
    rintro a ⟨⟩
    exact ⟨rfl, 1, by decide, rfl⟩
  have hread := ((hbegun.tail (.serve _ [] [] _ _ _ _ _ rfl (.cached hfound) trivial)).tail
    (.serve _ [] [] _ _ _ _ _ rfl .list trivial)).tail
    (.serve _ [] [] _ _ _ _ _ rfl .get trivial)
  have hsummed := hread.tail (.serve _ [] [] _ _ _ _ _ rfl (.update rfl) trivial)
  refine ⟨_, hsummed, by decide +kernel, ?_⟩
  exact stuck_of_run recorded_wornWorld rfl .refl (c := worn) rfl rfl (by decide)
    (fun t ht => by cases ht) (fun t ht => by cases ht) hsummed

end Crew

end GameFleet
