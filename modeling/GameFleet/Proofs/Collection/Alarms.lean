import GameFleet.Proofs.Collection.Failures
import GameFleet.Proofs.Collection.Provision
import GameFleet.Proofs.Pass.Requests
import Mathlib.Algebra.BigOperators.Group.List.Basic

/-!
# One alarm per intervention

A pass over a collection raises an alarm when it has written that the collection needs
intervention. It decides so by the collection as it was stored when the status was summed up, and
writes on what it reads later. Nobody but a pass over the collection makes it need intervention or
not need it any more (`Duty.needs_iff`), and so what a pass has seen once goes on to hold for it
(`Watch.Agrees`) if passes over the collection do not overlap and operators leave its health alone.
A pass then owes one alarm for each intervention, and none is owed when it ends
(`Watch.keeps_collection`). So there are as many alarms as interventions whenever no pass over the
collection is at work (`Chronicle.alarmed_of_run`).
-/

namespace GameFleet

open Program (Ends)
open Sample (arenaKey)

/-! ## Alarms -/

/-- The event warns that the collection needs intervention. -/
def Event.isAlarm (key : Key) (e : Event) : Bool :=
  e.type = .warning ∧ e.kind = Resource.kind Collection ∧ e.object = key ∧
    e.reason = .needsIntervention

/-- An alarm is recorded. -/
def Exchange.alarms (key : Key) : Exchange → Bool
  | ⟨.record event, _⟩ => event.isAlarm key
  | _ => false

theorem Exchange.alarms_cases {key : Key} {x : Exchange} (h : x.alarms key = true) :
    ∃ event answer, x = ⟨.record event, answer⟩ ∧ event.type = .warning ∧ event.object = key := by
  unfold alarms at h
  split at h
  · next event answer =>
    simp only [Event.isAlarm, decide_eq_true_eq] at h
    exact ⟨event, answer, rfl, h.1, h.2.2.1⟩
  · cases h

/-- The health that is stored of a collection, if it is there. -/
def World.health? (w : World) (key : Key) : Option CollectionHealth :=
  ((w.stores .collection).get? key).map (·.status.health)

namespace Chronicle.Deed

/-- An alarm is recorded of the collection. -/
def alarms (key : Key) (d : Deed) : Bool := d.exchange.alarms key

/-- The collection comes to need intervention, and did not before. -/
def intervenes (key : Key) (d : Deed) : Bool :=
  (d.before.health? key).any (· ≠ .needsIntervention) ∧
    d.after.health? key = some .needsIntervention

theorem intervenes_iff {key : Key} {d : Deed} : d.intervenes key = true ↔
    (d.before.health? key).isSome ∧ d.before.health? key ≠ some .needsIntervention ∧
      d.after.health? key = some .needsIntervention := by
  unfold intervenes
  cases d.before.health? key <;> simp

theorem intervenes_eq_false {key : Key} {d : Deed}
    (h : d.after.health? key = some .needsIntervention →
      d.before.health? key = some .needsIntervention) : d.intervenes key = false :=
  Bool.eq_false_iff.2 fun hintervenes =>
    (intervenes_iff.1 hintervenes).2.1 (h (intervenes_iff.1 hintervenes).2.2)

/-- How many more interventions than alarms there are. -/
def owes (key : Key) (d : Deed) : Int :=
  (if d.intervenes key then 1 else 0) - if d.alarms key then 1 else 0

end Chronicle.Deed

/-! ## What a pass has seen -/

/-- What a pass over a collection has seen of its health, and what it owes. -/
structure Watch where
  /-- The health that the collection was seen with last. -/
  seen : Option CollectionHealth
  /-- How many more interventions than alarms there were. -/
  owed : Int

namespace Watch

def start : Watch := ⟨none, 0⟩

def after (key : Key) (s : Watch) : Exchange → Watch
  | ⟨.get .collection _, .ok (some c)⟩ => { s with seen := some c.status.health }
  | ⟨.update .collection c, .ok _⟩ =>
    ⟨some c.status.health, s.owed +
      if c.status.health = .needsIntervention ∧ s.seen ≠ some .needsIntervention then 1 else 0⟩
  | ⟨.record event, _⟩ => { s with owed := s.owed - if event.isAlarm key then 1 else 0 }
  | _ => s

/-- The watch of a pass with these exchanges. -/
def of (key : Key) (past : List Exchange) : Watch := past.foldl (after key) start

theorem of_concat (key : Key) (past : List Exchange) (x : Exchange) :
    of key (past ++ [x]) = (of key past).after key x := by
  simp [of]

/-- Once the collection was seen, it needs intervention if it did then. -/
def Agrees (s : Watch) (health : Option CollectionHealth) : Prop :=
  s.seen.isSome → (health = some .needsIntervention ↔ s.seen = some .needsIntervention)

/-- What is read agrees with what was seen before. -/
def Fits (s : Watch) : Exchange → Prop
  | ⟨.get .collection _, .ok (some c)⟩ => s.Agrees (some c.status.health)
  | _ => True

theorem fits_of {s : Watch} {x : Exchange} (h : ∀ k (c : Collection),
    x = ⟨.get .collection k, .ok (some c)⟩ → s.Agrees (some c.status.health)) : s.Fits x := by
  unfold Fits
  split
  · exact h _ _ rfl
  · trivial

/-- A pass writes the collection only when it has seen it. -/
def May (s : Watch) : Request → Prop
  | .update .collection _ => s.seen.isSome
  | _ => True

def contract (key : Key) : Contract Watch :=
  .noting (after key) May fun s x => x.Possible ∧ s.Fits x

/-! ## Passes -/

variable {key : Key} {context : PassContext} {retry : Retry} {s t : Watch}

theorem ignores_aside {request : Request} (h : request.Aside) :
    (contract key).Ignores s request := by
  refine ⟨?_, fun answer t ht => ?_⟩
  · cases request with
    | update kind a => cases kind <;> first | exact h.elim | trivial
    | _ => trivial
  · obtain ⟨-, rfl⟩ := ht
    cases request with
    | get kind k => cases kind <;> first | exact h.elim | rfl
    | update kind a => cases kind <;> first | exact h.elim | rfl
    | record event =>
      have hnormal : event.type = .normal := h
      simp [after, Event.isAlarm, hnormal]
    | _ => rfl

/-- What has to do with members only leaves nothing owed. -/
theorem keeps_aside {α : Type} {p : Pass α} {post : α → Prop}
    (h : Pass.Only Request.Aside p post) (hs : s.owed = 0) :
    p.run.Keeps (contract key) (Ends (fun _ t => t.owed = 0) fun _ t => t.owed = 0) s := by
  refine (h.idle (fun _ => ignores_aside) fun ht => ht.1.1.tells).mono fun r t ht => ?_
  cases r <;> exact ht ▸ hs

/-- An alarm makes up for an intervention, and other events for nothing. -/
theorem keeps_record {type : EventType} {kind : Kind} {object : Key} {reason : Reason}
    {message : String} (hs : s.owed = if
      Event.isAlarm key ⟨type, Resource.kind kind.Obj, object, reason, message⟩ then 1 else 0) :
    (Pass.record type kind object reason message).run.Keeps (contract key)
      (Ends (fun _ t => t.owed = 0) fun _ t => t.owed = 0) s := by
  refine ⟨trivial, ?_⟩
  rintro answer _ ⟨-, rfl⟩
  change s.owed - _ = 0
  rw [hs, Int.sub_self]

/-- The collection is changed, from a watch of which `Q` holds whatever is read. -/
theorem keeps_modify {Q : Watch → Prop} {change : Collection → Option Collection}
    (hread : ∀ u (c : Collection), Q u → u.Agrees (some c.status.health) →
      Q { u with seen := some c.status.health }) (howed : ∀ u, Q u → u.owed = 0)
    (hkey : ∀ a b, change a = some b → Resource.key b = Resource.key a) (hs : Q s) :
    (Pass.access (.modify retry .collection key change)).run.Keeps (contract key)
      (Ends (fun r t => (r = none → t.owed = 0) ∧ ∀ c, r = some c → Resource.key c = key ∧
        ∃ u a, Q u ∧ u.seen = some a.status.health ∧
          (change a = none ∧ c = a ∧ t = u ∨ ∃ b, change a = some b ∧ c.status = b.status ∧
            t = u.after key ⟨.update .collection b, .ok c⟩)) fun _ t => t.owed = 0) s := by
  suffices hchanges : Access.Changes (contract key) .collection key change Q
      (fun a t => Q t ∧ t.seen = some a.status.health ∧ Resource.key a = key) _ from
    Pass.keeps_access (hchanges.keeps retry hs)
  constructor
  case get => exact fun _ => trivial
  case missing =>
    rintro u _ hu ⟨-, rfl⟩
    exact ⟨fun _ => howed _ hu, fun c hc => by cases hc⟩
  case found =>
    rintro u a _ hu ⟨⟨hpossible, hfits⟩, rfl⟩
    exact ⟨hread u a hu hfits, rfl, hpossible.tells⟩
  case failed =>
    rintro u e _ hu ⟨-, rfl⟩
    exact ⟨howed _ hu, fun _ => hu⟩
  case left =>
    rintro a u ⟨hu, hseen, hk⟩ hnone
    refine ⟨fun h => (by cases h), fun c hc => ?_⟩
    obtain rfl := Option.some.inj hc
    exact ⟨hk, u, a, hu, hseen, .inl ⟨hnone, rfl, rfl⟩⟩
  case update =>
    rintro a b u ⟨-, hseen, -⟩ -
    change u.seen.isSome
    rw [hseen]
    rfl
  case written =>
    rintro a b u c _ ⟨hu, hseen, hk⟩ hb ⟨⟨hpossible, -⟩, rfl⟩
    refine ⟨fun h => (by cases h), fun c' hc' => ?_⟩
    obtain rfl := Option.some.inj hc'
    have hkey' : Resource.key c = key := hpossible.tells.trans ((hkey a b hb).trans hk)
    obtain ⟨store, old, rfl⟩ := hpossible.updated
    exact ⟨hkey', u, a, hu, hseen, .inr ⟨b, hb, rfl, rfl⟩⟩
  case refused =>
    rintro a b u e _ ⟨hu, -, -⟩ - ⟨-, rfl⟩
    exact ⟨howed _ hu, fun _ => hu⟩
  case pause => exact fun _ => trivial
  case paused =>
    rintro u failures _ hu ⟨-, rfl⟩
    exact hu

/-- A change that calls for no intervention leaves nothing owed. -/
theorem keeps_modify_calm {change : Collection → Option Collection}
    (hkey : ∀ a b, change a = some b → Resource.key b = Resource.key a)
    (hcalm : ∀ a b, change a = some b → b.status.health = .needsIntervention →
      a.status.health = .needsIntervention) (hs : s.owed = 0) :
    (Pass.access (.modify retry .collection key change)).run.Keeps (contract key)
      (Ends (fun r t => t.owed = 0 ∧ ∀ c, r = some c → Resource.key c = key ∧
        t.seen = some c.status.health) fun _ t => t.owed = 0) s := by
  refine (keeps_modify (Q := fun u => u.owed = 0) (fun _ _ hu _ => hu) (fun _ hu => hu) hkey
    hs).mono fun r t hr => ?_
  rcases r with e | _ | c
  · exact hr
  · exact ⟨hr.1 rfl, fun c hc => by cases hc⟩
  · obtain ⟨hk, u, a, hu, hseen, ⟨-, rfl, rfl⟩ | ⟨b, hb, hstatus, rfl⟩⟩ := hr.2 c rfl
    · refine ⟨hu, fun c' hc' => ?_⟩
      obtain rfl := Option.some.inj hc'
      exact ⟨hk, hseen⟩
    · have hnone : ¬(b.status.health = .needsIntervention ∧
          u.seen ≠ some .needsIntervention) := fun h => h.2 (hseen.trans (by rw [hcalm a b hb h.1]))
      refine ⟨?_, fun c' hc' => ?_⟩
      · simp only [after, if_neg hnone, hu, add_zero]
      · obtain rfl := Option.some.inj hc'
        exact ⟨hk, by simp only [after, hstatus]⟩

/-- Whether the collection needs intervention is known, and nothing is owed. -/
structure Knows (health : CollectionHealth) (s : Watch) : Prop where
  owed : s.owed = 0
  seen : s.seen.isSome
  needs : s.seen = some .needsIntervention ↔ health = .needsIntervention

theorem Knows.read {health : CollectionHealth} {c : Collection} (h : s.Knows health)
    (hagrees : s.Agrees (some c.status.health)) :
    Knows health { s with seen := some c.status.health } :=
  ⟨h.owed, rfl, (hagrees h.seen).trans h.needs⟩

/-- An alarm is raised if the collection comes to need intervention. -/
theorem keeps_escalate {c : Collection} (hkey : Resource.key c = key) (hs : s.owed = 0)
    (hseen : s.seen = some c.status.health) :
    (Pass.escalate context c).run.Keeps (contract key)
      (Ends (fun _ t => t.owed = 0) fun _ t => t.owed = 0) s := by
  have hknows : s.Knows c.status.health := ⟨hs, by rw [hseen]; rfl, by rw [hseen]; simp⟩
  unfold Pass.escalate
  rw [hkey]
  refine (keeps_modify (fun _ _ hu => hu.read) (fun _ hu => hu.owed)
    (fun a b hb => congrArg Meta.key (Pass.intervene_keeps hb).1) hknows).bindExcept ?_
  intro r t ht
  split
  · next hraise =>
    obtain ⟨c', rfl⟩ := Option.isSome_iff_exists.1 hraise.2
    obtain ⟨-, u, a, hu, hread, ⟨hnone, -, rfl⟩ | ⟨b, hb, -, rfl⟩⟩ := ht.2 c' rfl
    · have hneeds : t.seen = some .needsIntervention := by rw [hread, Pass.intervene_eq_none_iff.1 hnone]
      exact absurd (hu.needs.1 hneeds) hraise.1
    · -- One is owed for the write, and the alarm makes up for it.
      obtain ⟨hne, rfl⟩ := Pass.eq_of_intervene hb
      exact keeps_record (by simp [after, Event.isAlarm, hread, hne, hu.owed])
  · next hsilent =>
    cases r with
    | none => exact ht.1 rfl
    | some c' =>
      obtain ⟨-, u, a, hu, hread, ⟨-, -, rfl⟩ | ⟨b, hb, -, rfl⟩⟩ := ht.2 c' rfl
      · exact hu.owed
      · have hneeds : c.status.health = .needsIntervention := by
          by_contra hne
          exact hsilent ⟨hne, rfl⟩
        rw [← hu.needs, hread] at hneeds
        exact absurd (Option.some.inj hneeds) (Pass.eq_of_intervene hb).1

theorem keeps_handleFailures {c : Collection} (hkey : Resource.key c = key) (failed : List Key)
    (hs : s.owed = 0) (hseen : s.seen = some c.status.health) :
    (Pass.handleFailures context c failed).run.Keeps (contract key)
      (Ends (fun _ t => t.owed = 0) fun _ t => t.owed = 0) s := by
  unfold Pass.handleFailures
  split
  · exact keeps_escalate hkey hs hseen
  · refine (keeps_aside (Pass.only_handleAll c failed 0) hs).bindExcept fun handled t ht => ?_
    split
    · exact ht
    · rw [hkey]
      refine (keeps_modify_calm (fun a b hb => ?_) (fun a b hb => ?_) ht).bindExcept ?_
      · cases hb
        rfl
      · cases hb
        exact id
      · rintro _ u ⟨hu, -⟩
        exact keeps_record (by simp [Event.isAlarm, hu])

/-- A collection that is summed up to need intervention has needed it before. -/
theorem summary_calm {members : List GameServer} {c c' : Collection}
    (h : (Pass.Summary.of members).change c = some c')
    (hneeds : c'.status.health = .needsIntervention) : c.status.health = .needsIntervention := by
  rw [Pass.Summary.eq_of_change h] at hneeds
  simp only [Pass.Summary.healthFor] at hneeds
  split at hneeds
  · next hstays => exact hstays.1
  · exact absurd hneeds (Pass.Summary.health_of_ne members)

/-- A pass over a collection has raised one alarm for each intervention when it ends. -/
theorem keeps_collection : (Pass.collection context key).run.Keeps (contract key)
    (Ends (fun _ t => t.owed = 0) fun _ t => t.owed = 0) start := by
  refine (keeps_aside (Pass.only_cached trivial) rfl).bindExcept fun found s hs => ?_
  cases found with
  | none => exact hs
  | some seen =>
    simp only
    split
    · exact hs
    refine (keeps_aside (Pass.only_list trivial) hs).bindExcept fun members t ht => ?_
    refine (keeps_modify_calm (fun a b hb => ?_) (fun _ _ => summary_calm) ht).bindExcept ?_
    · exact congrArg Meta.key (Pass.Summary.change_keeps hb).1
    · rintro r u ⟨hu, hread⟩
      cases r with
      | none => exact hu
      | some c =>
        obtain ⟨hkey, hseen⟩ := hread c rfl
        simp only
        split
        · exact keeps_handleFailures hkey _ hu hseen
        split
        · exact hu
        · exact keeps_aside (Pass.only_scale c members) hu

/-! ## What a pass notes -/

theorem owed_after {x : Exchange} (h : ¬x.Writes) :
    (s.after key x).owed = s.owed - if x.alarms key then 1 else 0 := by
  unfold after
  split
  · exact (Int.sub_zero _).symm
  · next c stored => exact absurd ⟨c, stored, rfl⟩ h
  · rfl
  · next hrecord =>
    have hnone : x.alarms key = false := Bool.eq_false_iff.2 fun halarms => by
      obtain ⟨event, answer, hx, -⟩ := Exchange.alarms_cases halarms
      exact hrecord event answer hx
    simp [hnone]

theorem seen_after {x : Exchange} (h : ¬x.Writes) : (s.after key x).seen = s.seen ∨
    ∃ k c, x = ⟨.get .collection k, .ok (some c)⟩ ∧
      (s.after key x).seen = some c.status.health := by
  unfold after
  split
  · next k c => exact .inr ⟨k, c, rfl, rfl⟩
  · next c stored => exact absurd ⟨c, stored, rfl⟩ h
  · exact .inl rfl
  · exact .inl rfl

theorem keeps_duty {d : Duty} (h : d.IsPassOver key) :
    d.program.Keeps (contract key) (fun _ t => t.owed = 0) start := by
  obtain ⟨context, rfl⟩ := h
  exact keeps_collection.bind fun r t ht => by cases r <;> exact ht

end Watch

namespace World

variable {w v : World} {key : Key}

theorem health?_of_get? {c : Collection} (h : (w.stores .collection).get? key = some c) :
    w.health? key = some c.status.health := by
  rw [health?, h]
  rfl

theorem health?_congr (h : v.stores .collection = w.stores .collection) :
    v.health? key = w.health? key := by
  rw [health?, health?, h]

/-- What is written of a collection is its health then. -/
theorem health?_of_update {c stored : Collection} (hkey : Resource.key c = key)
    (h : w.Serves (.update .collection c) (.ok stored) v) :
    (w.health? key).isSome ∧ v.health? key = some c.status.health := by
  cases h with
  | harmless hnone => exact hnone.elim
  | update hupdate =>
    obtain ⟨old, hold, -, rfl, rfl⟩ := Store.update_eq_ok hupdate
    rw [hkey] at hold
    rw [health?_of_get? hold]
    refine ⟨rfl, ?_⟩
    change (w.changed .collection (.updated old _)).health? key = _
    rw [health?_of_get? (w.get?_updated .collection hkey)]
    rfl

end World

/-! ## What others do -/

/-- Nobody but a pass over the collection makes it need intervention or not need it any more, if
operators do not. -/
theorem Duty.needs_iff {key : Key} {d : Duty} {s : Notes} {w v : World} {request : Request}
    {answer : request.Answer} (hw : w.Recorded) (hs : s.Sound w) (hpass : ¬d.IsPassOver key)
    (hask : ∀ asked, d = .ask asked → v.health? key = w.health? key) (hmay : d.May s request)
    (hserves : w.Serves request answer v) :
    v.health? key = some .needsIntervention ↔ w.health? key = some .needsIntervention := by
  rcases World.stored_after hw .collection key hserves with h | ⟨a, birth, rfl, -⟩ |
    ⟨a, old, rfl, hkey, hold, hversion, hv⟩ | ⟨rfl, -⟩
  · rw [World.health?, World.health?, h]
  · rw [hask _ hmay]
  · cases d with
    | pass context r k =>
      cases r with
      | gameServer => exact hmay.elim
      | collection =>
        obtain ⟨read, -, hread, hmeta, -⟩ := hmay
        obtain rfl : k = key := by rw [← hread, ← hkey]; exact (congrArg Meta.key hmeta).symm
        exact absurd ⟨context, rfl⟩ hpass
      | autoscaler =>
        obtain ⟨seen, hseen, auto, step, now, -, hsteady, -, -, rfl⟩ := hmay
        -- It steps from a collection that was steady, and leaves one that is in the making.
        obtain rfl : seen = old :=
          World.eq_of_past hw (hs.looked seen hseen) (hkey.symm ▸ hold) hversion
        have hhealth : seen.status.health ≠ .needsIntervention := fun hneeds => by
          simp [Pass.isSteady, hneeds] at hsteady
        rw [World.health?_of_get? hold, World.health?_of_get? hv]
        exact iff_of_false (fun h => by cases h) fun h => hhealth (Option.some.inj h)
    | ask asked => rw [hask _ rfl]
    | _ => exact hmay.elim
  · rw [hask _ hmay]

/-- Nothing is served while passes over the collection overlap. Operators leave its health as it
is, and leave alarms to the passes. -/
def Crew.alarming (key : Key) : Regime where
  begins _ := True
  answers e d request answer := e.Solo key ∧ ∀ asked, d = .ask asked →
    (∀ v, e.world.Serves request answer v → v.health? key = e.world.health? key) ∧
      Exchange.alarms key ⟨request, answer⟩ = false
  quits d := ¬d.IsPassOver key

namespace Chronicle

variable {key : Key} {deeds : List Deed} {d : Deed} {b c : Chronicle}

/-- Nobody but a pass over the collection raises alarms of it, if operators do not. -/
theorem Happened.not_alarms (h : Happened deeds d)
    (hpossible : FairTo deeds (fun _ x => x.Possible) d.duty) (hpass : ¬d.duty.IsPassOver key)
    (hask : ∀ asked, d.duty = .ask asked → d.alarms key = false) : d.alarms key = false := by
  have htells : FairTo deeds (fun _ x => x.request.Tells x.answer) d.duty :=
    fun e he hduty => (hpossible e he hduty).tells
  refine Bool.eq_false_iff.2 fun halarms => ?_
  obtain ⟨event, answer, hexchange, hwarning, hobject⟩ := Exchange.alarms_cases halarms
  by_cases hwarns : d.duty.MayWarn
  · rcases hwarns with ⟨k, hk⟩ | ⟨asked, hasked⟩
    · have hmay := h.may (Duty.only_warnsOf hk) htells
      rw [hexchange] at hmay
      rcases hmay with hnormal | rfl
      · rw [hwarning] at hnormal
        cases hnormal
      · exact hpass (hobject ▸ hk)
    · exact Bool.eq_false_iff.1 (hask asked hasked) halarms
  · have hmay := h.may (Duty.only_mute hwarns) htells
    rw [hexchange] at hmay
    have hnormal : event.type = .normal := hmay
    rw [hwarning] at hnormal
    cases hnormal

theorem Happened.owes_eq_zero (h : Happened deeds d)
    (hpossible : FairTo deeds (fun _ x => x.Possible) d.duty) (hpass : ¬d.duty.IsPassOver key)
    (hask : ∀ asked, d.duty = .ask asked →
      d.after.health? key = d.before.health? key ∧ d.alarms key = false) : d.owes key = 0 := by
  have hneeds := Duty.needs_iff h.recorded (Notes.sound_of h.shown) hpass
    (fun asked hasked => (hask asked hasked).1) (h.mayAsk hpossible) h.serves
  have halarms := h.not_alarms hpossible hpass fun asked hasked => (hask asked hasked).2
  rw [Deed.owes, halarms, Deed.intervenes_eq_false hneeds.1]
  rfl

/-! ## Runs -/

/-- What a pass over the collection owes is what it has not raised an alarm of yet, and what it has
seen goes on to hold. -/
theorem Happened.owed_eq (h : Happened deeds d)
    (hpossible : FairTo deeds (fun _ x => x.Possible) d.duty)
    (hfair : FairTo deeds (fun past x => x.Possible ∧ (Watch.of key past).Fits x) d.duty)
    (hpass : d.duty.IsPassOver key)
    (hagrees : (Watch.of key d.past).Agrees (d.before.health? key)) :
    (Watch.of key (d.past ++ [d.exchange])).owed = (Watch.of key d.past).owed + d.owes key ∧
      (Watch.of key (d.past ++ [d.exchange])).Agrees (d.after.health? key) := by
  have hcourse := h.may_course hpossible hpass
  have hmay := h.may (Watch.keeps_duty hpass) hfair
  obtain ⟨-, -, -, -, hserves⟩ := h
  obtain ⟨duty, past, x, w, v⟩ := d
  simp only [Watch.of_concat] at *
  by_cases hwrite : x.Writes
  · obtain ⟨c, stored, rfl⟩ := hwrite
    have hseen : (Watch.of key past).seen.isSome := hmay
    obtain ⟨hstored, hafter⟩ := World.health?_of_update hcourse.1 hserves
    refine ⟨?_, fun _ => by rw [hafter]; rfl⟩
    have hintervenes : Deed.intervenes key ⟨duty, past, ⟨.update .collection c, .ok stored⟩, w, v⟩ ↔
        c.status.health = .needsIntervention ∧
          (Watch.of key past).seen ≠ some .needsIntervention := by
      rw [Deed.intervenes_iff, ne_eq, ne_eq, hagrees hseen, hafter, Option.some_inj]
      tauto
    simp only [Watch.after, Deed.owes, hintervenes]
    exact congrArg _ (Int.sub_zero _).symm
  · have hsame : v.health? key = w.health? key :=
      World.health?_congr (hcourse.stores_collection hwrite hserves)
    constructor
    · rw [Watch.owed_after hwrite, Deed.owes, Deed.intervenes_eq_false hsame.symm.trans]
      change _ = _ + (0 - if x.alarms key then 1 else 0)
      omega
    · rcases Watch.seen_after hwrite with hseen | ⟨k, c, rfl, hseen⟩
      · rw [Watch.Agrees, hseen, hsame]
        exact hagrees
      · obtain rfl : k = key := hcourse
        have hfound := World.health?_of_get? (World.eq_get?_of_get hserves).symm
        rw [Watch.Agrees, hseen, hsame, hfound]
        exact fun _ => Iff.rfl

/-- A pass over the collection has seen it as it is. -/
structure Alert (key : Key) (c : Chronicle) : Prop where
  diaries : ∀ x ∈ c.diaries, x.task.duty.IsPassOver key →
    (Watch.of key x.past).Agrees (c.world.health? key)
  deeds : ∀ d ∈ c.deeds, d.duty.IsPassOver key →
    (Watch.of key d.past).Agrees (d.before.health? key)
  /-- Nobody else owes anything. -/
  others : ∀ d ∈ c.deeds, ¬d.duty.IsPassOver key → d.owes key = 0

theorem fairTo_of_agrees {R : Regime} (hfaithful : c.Faithful R) {duty : Duty}
    (hpass : duty.IsPassOver key) (hagrees : ∀ d ∈ c.deeds, d.duty.IsPassOver key →
      (Watch.of key d.past).Agrees (d.before.health? key)) :
    FairTo c.deeds (fun past x => x.Possible ∧ (Watch.of key past).Fits x) duty := by
  rintro d hd rfl
  have hpossible := hfaithful.possible d.duty
  have hdeed := hfaithful.deeds d hd
  have hcourse := hdeed.may_course hpossible hpass
  refine ⟨hpossible d hd rfl, ?_⟩
  have hd' := hagrees d hd hpass
  obtain ⟨-, -, -, -, hserves⟩ := hdeed
  obtain ⟨duty, past, x, w, v⟩ := d
  refine Watch.fits_of fun k found hx => ?_
  subst hx
  obtain rfl : k = key := hcourse
  rwa [World.health?_of_get? (World.eq_get?_of_get hserves).symm] at hd'

theorem Alert.step (h : b.Alert key) (hstep : Step (Crew.alarming key) b c)
    (hfaithful : c.Faithful (Crew.alarming key)) : c.Alert key := by
  cases hstep with
  | begin duty hbegins =>
    refine ⟨fun x hx hpass => ?_, h.deeds, h.others⟩
    rcases List.mem_append.1 hx with hx | hx
    · exact h.diaries x hx hpass
    · rw [List.mem_singleton.1 hx]
      exact fun hseen => by cases hseen
  | serve before after duty past request next answer w hdiaries hserves hanswers =>
    obtain ⟨hsolo, hask⟩ := hanswers
    have hdeed := hfaithful.deeds _ (List.mem_append_right _ List.mem_cons_self)
    have hpossible := hfaithful.possible duty
    have hmem : ⟨⟨duty, .call request next⟩, past⟩ ∈ b.diaries := by simp [hdiaries]
    have hspares (asked : Request) (hasked : duty = .ask asked) :
        w.health? key = b.world.health? key ∧ Exchange.alarms key ⟨request, answer⟩ = false :=
      ⟨(hask asked hasked).1 w hserves, (hask asked hasked).2⟩
    have hdeeds : ∀ d ∈ b.deeds ++ [⟨duty, past, ⟨request, answer⟩, b.world, w⟩],
        d.duty.IsPassOver key → (Watch.of key d.past).Agrees (d.before.health? key) := by
      intro d hd hpass
      rcases List.mem_append.1 hd with hd | hd
      · exact h.deeds d hd hpass
      · obtain rfl := List.mem_singleton.1 hd
        exact h.diaries _ hmem hpass
    refine ⟨fun x hx hpass => ?_, hdeeds, fun d hd hpass => ?_⟩
    · rcases eq_or_mem_of_mem hx with rfl | hx
      · exact (hdeed.owed_eq hpossible (fairTo_of_agrees hfaithful hpass hdeeds) hpass
          (h.diaries _ hmem hpass)).2
      · have hnot : ¬duty.IsPassOver key := not_isPassOver_of_solo hsolo hdiaries hx hpass
        have hneeds := Duty.needs_iff hdeed.recorded (Notes.sound_of hdeed.shown) hnot
          (fun asked hasked => (hspares asked hasked).1) (hdeed.mayAsk hpossible) hserves
        exact fun hseen => hneeds.trans (h.diaries x (hdiaries ▸ mem_of_mem_others hx) hpass hseen)
    · rcases List.mem_append.1 hd with hd | hd
      · exact h.others d hd hpass
      · obtain rfl := List.mem_singleton.1 hd
        exact hdeed.owes_eq_zero hpossible hpass hspares
  | leave before after x hdiaries hleft =>
    exact ⟨fun y hy => h.diaries y (hdiaries ▸ mem_of_mem_others hy), h.deeds, h.others⟩

theorem alert_of_run {w : World} (hw : w.Recorded)
    (hrun : Run (Crew.alarming key) (opening w) c) : c.Alert key := by
  induction hrun with
  | refl => exact ⟨fun x hx => (by cases hx), fun d hd => (by cases hd), fun d hd => (by cases hd)⟩
  | tail hrun hstep ih => exact ih.step hstep (faithful_of_run hw (hrun.tail hstep))

/-- What a task owes, which is nothing if it is no pass over the collection. -/
def owed (key : Key) (duty : Duty) (past : List Exchange) : Int :=
  if duty.IsPassOver key then (Watch.of key past).owed else 0

/-- A pass over the collection that has left owes nothing. -/
theorem owed_eq_zero {x : Diary} (hfaithful : c.Faithful (Crew.alarming key)) (halert : c.Alert key)
    (hx : x ∈ c.closed) : owed key x.task.duty x.past = 0 := by
  unfold owed
  split
  · next hpass =>
    obtain ⟨⟨hleads, hattested⟩, hleft⟩ := hfaithful.closed x hx
    have hkept := hleads.keeps (Watch.keeps_duty hpass)
      (hattested.allFair (fairTo_of_agrees hfaithful hpass halert.deeds))
    rw [hleft.resolve_right (not_not_intro hpass)] at hkept
    exact hkept
  · rfl

theorem sum_owes {w : World} (hw : w.Recorded) (hrun : Run (Crew.alarming key) (opening w) c) :
    (c.deeds.map (Deed.owes key)).sum =
      ((c.diaries ++ c.closed).map fun x => owed key x.task.duty x.past).sum := by
  have hfaithful := faithful_of_run hw hrun
  have halert := alert_of_run hw hrun
  refine sum_deeds hrun (fun duty => ite_self _) fun d hd => ?_
  unfold owed
  split
  · next hpass =>
    exact ((hfaithful.deeds d hd).owed_eq (hfaithful.possible _)
      (fairTo_of_agrees hfaithful hpass halert.deeds) hpass (halert.deeds d hd hpass)).1
  · next hpass => rw [halert.others d hd hpass, add_zero]

/-- What is owed of all deeds together. -/
theorem sum_owes_eq (key : Key) (deeds : List Deed) : (deeds.map (Deed.owes key)).sum =
    (deeds.countP (Deed.intervenes key) : Int) - deeds.countP (Deed.alarms key) := by
  induction deeds with
  | nil => rfl
  | cons d deeds ih =>
    rw [List.map_cons, List.sum_cons, ih, List.countP_cons, List.countP_cons, Deed.owes]
    push_cast
    omega

/-- There are as many alarms as interventions, whenever no pass over the collection is at work : in
every run in which those passes do not overlap, and operators leave the health of the collection as
it is. -/
theorem alarmed_of_run {w : World} (hrecorded : w.Recorded)
    (hrun : Run (Crew.alarming key) (opening w) c)
    (hidle : ∀ x ∈ c.diaries, ¬x.task.duty.IsPassOver key) :
    c.deeds.countP (Deed.alarms key) = c.deeds.countP (Deed.intervenes key) := by
  have hfaithful := faithful_of_run hrecorded hrun
  have halert := alert_of_run hrecorded hrun
  have hnothing : ∀ x ∈ c.diaries ++ c.closed, owed key x.task.duty x.past = 0 := fun x hx =>
    (List.mem_append.1 hx).elim (fun hx => if_neg (hidle x hx)) (owed_eq_zero hfaithful halert)
  have hsum := sum_owes hrecorded hrun
  rw [sum_owes_eq, List.sum_eq_zero (List.forall_mem_map.2 hnothing)] at hsum
  omega

/-- A collection that has failed once, and may fail more often. -/
def tired : Collection :=
  let c := Sample.collection "arena" 2 .remove 5 none
  Store.newborn .empty Sample.birth { c with status := { c.status with timesFailed := 1 } }

/-- A member of it that has failed. -/
def tiredMember : GameServer :=
  let g := tired.newMember "arena-old"
  Store.newborn .empty Sample.birth { g with status := { g.status with health := .failed } }

def tiredWorld : World :=
  ((World.blank (Sample.registry [])).changed .collection (.added tired)).changed .gameServer
    (.added tiredMember)

theorem recorded_tiredWorld : tiredWorld.Recorded :=
  ((World.recorded_blank _).changed (Store.admits_of_create (Store.create_eq rfl))).changed
    (Store.admits_of_create (Store.create_eq rfl))

theorem tired_found (a : Collection) (h : some tired = some a) :
    Resource.key a = arenaKey ∧ tiredWorld.Past .collection a := by
  cases h
  exact ⟨rfl, 1, by decide, rfl⟩

/-- The collection when it may not fail any more. -/
def tiredOut : Collection := { tired with spec := { tired.spec with maxFailures := 1 } }

/-- While a pass is at work, an operator lowers the limit of failures to those that there were. -/
theorem alarmed_tired :
    ∃ c, Run (Crew.alarming arenaKey) (opening tiredWorld) c ∧
      ((∀ x ∈ c.diaries, ¬x.task.duty.IsPassOver arenaKey) ∧
        c.deeds.countP (Deed.intervenes arenaKey) = 1) ∧
      c.deeds.countP (Deed.alarms arenaKey) = c.deeds.countP (Deed.intervenes arenaKey) := by
  have hstart : Run (Crew.alarming arenaKey) (opening tiredWorld) (opening tiredWorld) := .refl
  have halone {w : World} {context : PassContext} {left : Program Unit} {request : Request}
      {answer : request.Answer} : (Crew.alarming arenaKey).answers
        ⟨w, [⟨.pass context .collection arenaKey, left⟩]⟩
        (.pass context .collection arenaKey) request answer :=
    ⟨List.pairwise_singleton _ _, fun _ h => by cases h⟩
  have hoperator {t : Task} {left : Program Unit} {stored : Collection} :
      (Crew.alarming arenaKey).answers
        ⟨tiredWorld, [t, ⟨.ask (.update .collection tiredOut), left⟩]⟩
        (.ask (.update .collection tiredOut)) (.update .collection tiredOut) (.ok stored) := by
    refine ⟨List.pairwise_cons.2 ⟨fun u hu => ?_, List.pairwise_singleton _ _⟩,
      fun asked _ => ⟨fun v hserves => ?_, rfl⟩⟩
    · obtain rfl := List.mem_singleton.1 hu
      rintro ⟨-, _, ⟨⟩⟩
    · exact (World.health?_of_update rfl hserves).2
  have hbegun := hstart.tail (.begin _ (.pass default .collection arenaKey) trivial)
  have hlisted := (hbegun.tail
    (.serve _ [] [] _ _ _ _ _ _ rfl (.cached tired_found) halone)).tail
    (.serve _ [] [] _ _ _ _ _ _ rfl .list halone)
  have hlowered := ((hlisted.tail
    (.begin _ (.ask (.update .collection tiredOut)) trivial)).tail
    (.serve _ [_] [] _ _ _ _ _ _ rfl (.update rfl) hoperator)).tail
    (.leave _ [_] [] _ rfl (.inl rfl))
  have hsummed := (hlowered.tail
    (.serve _ [] [] _ _ _ _ _ _ rfl .get halone)).tail
    (.serve _ [] [] _ _ _ _ _ _ rfl (.update rfl) halone)
  have hraised := ((hsummed.tail
    (.serve _ [] [] _ _ _ _ _ _ rfl .get halone)).tail
    (.serve _ [] [] _ _ _ _ _ _ rfl (.update rfl) halone)).tail
    (.serve _ [] [] _ _ (.record _) _ () _ rfl (.harmless trivial) halone)
  have hdone := hraised.tail (.leave _ [] [] _ rfl (.inl rfl))
  have hidle : ∀ x ∈ ([] : List Diary), ¬x.task.duty.IsPassOver arenaKey :=
    fun x hx => by cases hx
  exact ⟨_, hdone, ⟨hidle, by decide +kernel⟩, alarmed_of_run recorded_tiredWorld hdone hidle⟩

end Chronicle

end GameFleet
