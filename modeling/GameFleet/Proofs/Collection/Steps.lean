import GameFleet.Proofs.Collection.Bounds
import GameFleet.Proofs.Pass.Deeds

/-!
# Steps of an autoscaler

A pass over an autoscaler judges the collection that the cache has, and writes all of it back with
the step on it. The store takes the step only if the collection is still the one that was judged :
every write has a version of its own, also when the collection was deleted in the meantime and
made again. So a step overwrites nothing that the pass has not seen, whatever the others write
(`Chronicle.steps_of_run`), and of two passes that have judged the same collection only one takes
its step (`Chronicle.steps_raced`).
-/

namespace GameFleet

open Program (Ends)

/-! ## What a step changes -/

/-- What is stored of a collection after a step : besides the version, the step changes the number
of replicas, the time of the last step and the health. -/
structure Collection.StepsTo (c : Collection) (step : ScaleStep) (now : Time.Instant)
    (c' : Collection) : Prop where
  replicas : c'.spec.replicas.toNat = step.moved c.spec.replicas.toNat
  stamped : c'.spec.autoscaler =
    c.spec.autoscaler.map fun a => { a with lastScale := some now.toStampSeconds }
  creating : c'.status.health = .creating
  newer : c.metadata.version < c'.metadata.version
  kept : c = { c' with
    metadata := { c'.metadata with version := c.metadata.version }
    spec := { c'.spec with replicas := c.spec.replicas, autoscaler := c.spec.autoscaler }
    status := { c'.status with health := c.status.health } }

/-! ## The pass of an autoscaler -/

/-- What a pass over an autoscaler was shown, and the step that it has come to. -/
structure Appraisal where
  /-- The collection as the cache had it. -/
  seen : Collection
  scaler : Autoscaler
  now : Time.Instant
  members : List GameServer
  step : ScaleStep

namespace Appraisal

variable {key : Key}

/-- What the pass has asked for. -/
def past (key : Key) (p : Appraisal) : List Exchange :=
  [⟨.cached .collection key, .ok (some p.seen)⟩, ⟨.now, p.now⟩,
    ⟨.cachedList .gameServer p.seen.metadata.ns p.seen.memberSelector, .ok p.members⟩]

/-- The collection can be scaled, and the step is due. -/
structure Due (p : Appraisal) : Prop where
  awake : Resource.isTerminating p.seen = false
  active : p.seen.activeAutoscaler? = some p.scaler
  healthy : p.seen.status.health = .healthy
  running : p.seen.status.podState = some .running
  rested : p.scaler.coolingDown p.now = false
  called : p.scaler.decide p.members = some p.step

/-- The collection that is written. -/
def scaled (p : Appraisal) : Collection := p.seen.scaled p.step p.now

/-- What a pass asks for : it writes nothing but a step that is due. -/
def May (key : Key) (past : List Exchange) : Request → Prop
  | .update .collection c => ∃ p : Appraisal, past = p.past key ∧ p.Due ∧ c = p.scaled
  | .create _ _ => False
  | .update _ _ => False
  | .delete _ _ => False
  | .allocate _ => False
  | .release _ _ => False
  | _ => True

/-- The contract of a pass, which remembers everything. -/
def contract (key : Key) : Contract (List Exchange) :=
  .noting (fun past x => past ++ [x]) (May key) fun _ _ => True

theorem foldl_remember (past : List Exchange) :
    past.foldl (fun past x => past ++ [x]) [] = past := by
  induction past using List.reverseRecOn with
  | nil => rfl
  | append_singleton past x ih => rw [List.foldl_append, ih, List.foldl_cons, List.foldl_nil]

end Appraisal

/-- The exchange is an update that was accepted. -/
def Exchange.commits : Exchange → Bool
  | ⟨.update _ _, .ok _⟩ => true
  | _ => false

/-- How a pass over an autoscaler ends : it has made the step that it returns, and has written
nothing if it returns none. -/
structure Appraisal.Closes (key : Key) (result : Except PassError (Option ScaleStep))
    (past : List Exchange) : Prop where
  stepped : ∀ step, result = .ok (some step) → ∃ p : Appraisal, p.step = step ∧ p.Due ∧
    ∃ c more, past = p.past key ++ ⟨.update .collection p.scaled, .ok c⟩ :: more
  quiet : (∀ step, result ≠ .ok (some step)) → past.any Exchange.commits = false

namespace Appraisal

variable {key : Key} {p : Appraisal}

theorem closes_none {past : List Exchange} (h : past.any Exchange.commits = false) :
    Closes key (.ok none) past :=
  ⟨by rintro step ⟨⟩, fun _ => h⟩

theorem closes_error {e : PassError} {past : List Exchange}
    (h : past.any Exchange.commits = false) : Closes key (.error e) past :=
  ⟨by rintro step ⟨⟩, fun _ => h⟩

/-- The condition on how a pass ends, as one on a part of it that can fail. -/
abbrev closing (key : Key) : Except PassError (Option ScaleStep) → List Exchange → Prop :=
  Ends (fun found => Closes key (.ok found)) fun e => Closes key (.error e)

theorem keeps_look : (Pass.cached .collection key).run.Keeps (contract key)
    (Ends (fun found past => past = [⟨.cached .collection key, .ok found⟩])
      fun e => Closes key (.error e)) [] := by
  refine ⟨trivial, ?_⟩
  rintro answer t ⟨-, rfl⟩
  cases answer with
  | ok found => rfl
  | error e => exact closes_error rfl

theorem keeps_now {past : List Exchange} : (Pass.ask .now).run.Keeps (contract key)
    (Ends (fun now t => t = past ++ [⟨.now, now⟩]) fun e => Closes key (.error e)) past :=
  ⟨trivial, fun _ _ h => h.2⟩

theorem keeps_members {past : List Exchange} {ns : String} {selector : Selector}
    (h : past.any Exchange.commits = false) :
    (Pass.cachedList .gameServer ns selector).run.Keeps (contract key)
      (Ends (fun members t => t = past ++ [⟨.cachedList .gameServer ns selector, .ok members⟩])
        fun e => Closes key (.error e)) past := by
  refine ⟨trivial, ?_⟩
  rintro answer t ⟨-, rfl⟩
  cases answer with
  | ok members => rfl
  | error e => exact closes_error (by rw [List.any_append, h]; rfl)

theorem keeps_takeStep (hdue : p.Due) :
    (do return some (← Pass.takeStep p.seen key p.step p.now) :
      Pass (Option ScaleStep)).run.Keeps (contract key) (closing key) (p.past key) := by
  refine ⟨⟨p, rfl, hdue, rfl⟩, ?_⟩
  rintro answer t ⟨-, rfl⟩
  cases answer with
  | error e => exact closes_error rfl
  | ok c =>
    refine ⟨trivial, ?_⟩
    rintro answer t ⟨-, rfl⟩
    refine ⟨?_, fun h => absurd rfl (h p.step)⟩
    rintro step ⟨⟩
    exact ⟨p, rfl, hdue, c, _, List.append_assoc _ _ _⟩

/-- A pass writes nothing but a step that is due, and says so if it has. -/
theorem keeps_autoscaler : (Pass.autoscaler key).run.Keeps (contract key) (closing key) [] := by
  refine keeps_look.bindExcept ?_
  rintro found t rfl
  cases found with
  | none => exact closes_none rfl
  | some c =>
    simp only
    split
    · exact closes_none rfl
    next hawake =>
      cases hactive : c.activeAutoscaler? with
      | none => exact closes_none rfl
      | some a =>
        simp only
        split
        · exact closes_none rfl
        next hsteady =>
          refine keeps_now.bindExcept ?_
          rintro now t rfl
          split
          · exact closes_none rfl
          next hrested =>
            refine (keeps_members rfl).bindExcept ?_
            rintro members t rfl
            cases hcalled : a.decide members with
            | none => exact closes_none rfl
            | some step =>
              have hwell : c.status.health = .healthy ∧ c.status.podState = some .running := by
                simpa [Pass.isSteady] using hsteady
              have hdue : Due ⟨c, a, now, members, step⟩ :=
                ⟨by simpa using hawake, hactive, hwell.1, hwell.2, by simpa using hrested, hcalled⟩
              exact keeps_takeStep hdue

theorem closes_of_closing {result : Except PassError (Option ScaleStep)} {past : List Exchange}
    (h : closing key result past) : Closes key result past := by
  cases result <;> exact h

end Appraisal

/-! ## Steps on record -/

namespace Chronicle

variable {deeds : List Deed} {d : Deed} {key : Key} {p : Appraisal} {c : Chronicle}

/-- The deed makes the step : what it replaces is the collection that was judged. -/
structure Deed.Takes (d : Deed) (key : Key) (p : Appraisal) : Prop where
  past : d.past = p.past key
  due : p.Due
  stored : (d.before.stores .collection).get? key = some p.seen
  after : ∃ c, p.seen.StepsTo p.step p.now c ∧
    d.after = d.before.changed .collection (.updated p.seen c)

/-- The deed is on the diary. -/
def Deed.IsOf (d : Deed) (x : Diary) : Prop :=
  d.duty = x.task.duty ∧ d.past ++ [d.exchange] <+: x.past

/-- What the store makes of a step. -/
theorem stepsTo_successor {s : Store Collection} (hs : s.Sound)
    (hstored : s.get? key = some p.seen) :
    p.seen.StepsTo p.step p.now (s.successor p.seen p.scaled) where
  replicas := p.step.toNat_apply _
  stamped := rfl
  creating := rfl
  newer := Nat.lt_succ_of_le (hs.version_le hstored)
  kept := rfl

theorem Happened.takes (h : Happened deeds d) (hpast : d.past = p.past key) (hdue : p.Due)
    {a : Collection} (hexchange : d.exchange = ⟨.update .collection p.scaled, .ok a⟩) :
    d.Takes key p := by
  obtain ⟨hkey, hseen⟩ : Resource.key p.seen = key ∧ d.before.Past .collection p.seen :=
    h.shown ⟨.cached .collection key, .ok (some p.seen)⟩ (by rw [hpast]; exact List.mem_cons_self)
  have hserves := h.serves
  rw [hexchange] at hserves
  generalize hafter : d.after = v at hserves
  cases hserves with
  | harmless h => exact h.elim
  | update hw =>
    obtain ⟨old, hold, hversion, rfl, rfl⟩ := Store.update_eq_ok hw
    -- The store compares versions only, and a version belongs to one write.
    obtain rfl : p.seen = old := World.eq_of_past h.recorded hseen hold hversion.symm
    have hstored : (d.before.stores .collection).get? key = some p.seen := hkey ▸ hold
    exact ⟨hpast, hdue, hstored, _,
      stepsTo_successor (h.recorded _).sound hstored, hafter⟩

theorem Happened.may_step (h : Happened deeds d) (hscaling : d.duty.IsScalingOf key) :
    Appraisal.May key d.past d.exchange.request := by
  have hkeeps : d.duty.program.Keeps (Appraisal.contract key) (fun _ _ => True) [] := by
    obtain ⟨context, hduty⟩ := hscaling
    have hautoscaler : (Pass.autoscaler key).run.Keeps (Appraisal.contract key)
        (Ends (fun _ _ => True) fun _ _ => True) [] :=
      Appraisal.keeps_autoscaler.mono fun result _ _ => by cases result <;> trivial
    have hpass : (Reconciler.pass context .autoscaler key).run.Keeps (Appraisal.contract key)
        (Ends (fun _ _ => True) fun _ _ => True) [] :=
      hautoscaler.bindExcept fun _ _ _ => trivial
    rw [hduty]
    exact hpass.bind fun _ _ _ => trivial
  have hmay := h.may hkeeps fun _ _ _ => trivial
  rwa [Appraisal.foldl_remember] at hmay

/-- What a pass over an autoscaler asks for changes nothing, or is a step that is taken. -/
theorem Happened.stays_or_takes (h : Happened deeds d) (hscaling : d.duty.IsScalingOf key) :
    d.exchange.commits = false ∧ d.after = d.before ∨
      d.exchange.commits = true ∧ ∃ p, d.Takes key p := by
  have hmay := h.may_step hscaling
  have hserves := h.serves
  obtain ⟨duty, past, ⟨request, answer⟩, before, after⟩ := d
  dsimp only at hmay hserves ⊢
  cases hserves with
  | harmless hh =>
    refine .inl ⟨?_, rfl⟩
    cases request with
    | update kind a => cases answer with
      | ok b => exact hh.elim
      | error e => rfl
    | _ => rfl
  | @update kind a c s hw =>
    cases kind with
    | collection =>
      obtain ⟨p, hpast, hdue, rfl⟩ := hmay
      exact .inr ⟨rfl, p, h.takes hpast hdue rfl⟩
    | _ => exact hmay.elim
  | create _ => exact hmay.elim
  | delete _ => exact hmay.elim
  | allocate => exact hmay.elim
  | release => exact hmay.elim
  | _ => exact .inl ⟨rfl, rfl⟩

/-- A pass over an autoscaler that is done has come to a result. -/
theorem Genuine.closes {x : Diary} (h : Genuine deeds x) (hscaling : x.task.duty.IsScalingOf key)
    (hdone : x.task.left = .done ()) :
    ∃ result, (Pass.autoscaler key).run.Leads x.past (.done result) ∧
      Appraisal.Closes key result x.past := by
  obtain ⟨context, hduty⟩ := hscaling
  have hleads := h.leads
  rw [hduty, hdone] at hleads
  obtain ⟨r, hpass⟩ := Program.Leads.of_discard hleads
  change (ExceptT.run (Pass.autoscaler key >>= fun _ => pure ())).Leads x.past (.done r) at hpass
  rw [ExceptT.run_bind] at hpass
  obtain ⟨result, hresult, -⟩ :=
    Program.Leads.of_bind (fun result => by cases result <;> exact ⟨_, rfl⟩) hpass
  refine ⟨result, hresult, Appraisal.closes_of_closing ?_⟩
  have hends := hresult.keeps Appraisal.keeps_autoscaler fun _ _ _ _ => trivial
  rwa [Appraisal.foldl_remember] at hends

/-- Whatever the others write in the meantime, a pass over an autoscaler replaces nothing but the
collection that it has judged, as it was judged, by that collection with one step on it. It has
written nothing if it ends without a step. -/
theorem steps_of_run (key : Key) {w : World} (hrecorded : w.Recorded)
    (hrun : Run .anything (opening w) c) :
    (∀ d ∈ c.deeds, d.duty.IsScalingOf key → d.after = d.before ∨ ∃ p, d.Takes key p) ∧
    ∀ x ∈ c.diaries ++ c.closed, x.task.duty.IsScalingOf key → x.task.left = .done () →
      ∃ result, (Pass.autoscaler key).run.Leads x.past (.done result) ∧
        (∀ step, result = .ok (some step) →
          ∃ d ∈ c.deeds, d.IsOf x ∧ ∃ p, d.Takes key p ∧ p.step = step) ∧
        ((∀ step, result ≠ .ok (some step)) → ∀ d ∈ c.deeds, d.IsOf x → d.after = d.before) := by
  have hfaithful := faithful_of_run hrecorded hrun
  constructor
  · intro d hd hscaling
    exact ((hfaithful.deeds d hd).stays_or_takes hscaling).imp And.right And.right
  · intro x hx hscaling hdone
    have hgenuine : Genuine c.deeds x :=
      (List.mem_append.1 hx).elim (fun h => (hfaithful.diaries x h).1)
        fun h => (hfaithful.closed x h).1
    obtain ⟨result, hleads, hcloses⟩ := hgenuine.closes hscaling hdone
    refine ⟨result, hleads, fun step hstep => ?_, fun hresult d hd hof => ?_⟩
    · obtain ⟨p, hp, hdue, a, more, hpast⟩ := hcloses.stepped step hstep
      obtain ⟨d, hd, hduty, hbefore, hexchange⟩ := hgenuine.attested _ _ _ hpast
      refine ⟨d, hd, ⟨hduty, ?_⟩, p, (hfaithful.deeds d hd).takes hbefore hdue hexchange, hp⟩
      rw [hbefore, hexchange, hpast, List.append_cons]
      exact List.prefix_append _ _
    · obtain ⟨hduty, hprefix⟩ := hof
      rcases (hfaithful.deeds d hd).stays_or_takes (hduty ▸ hscaling) with h | h
      · exact h.2
      · have hmem : d.exchange ∈ x.past :=
          hprefix.subset (List.mem_append_right _ List.mem_cons_self)
        have hquiet := List.any_eq_false.1 (hcloses.quiet hresult) _ hmem
        exact absurd h.1 hquiet

/-! ## Two passes at once -/

/-- The collection is steady, and its members are full. -/
def steadyWorld : World :=
  (Crew.crowdedWorld 2).changed .collection (.updated (Crew.crowded 2) (Crew.crowdedSummed 2))

theorem recorded_steadyWorld : steadyWorld.Recorded :=
  (Crew.recorded_crowdedWorld 2).changed ⟨rfl, by rintro _ ⟨⟩; rfl⟩

theorem steady_found (a : Collection) (h : some (Crew.crowdedSummed 2) = some a) :
    Resource.key a = Sample.arenaKey ∧ steadyWorld.Past .collection a := by
  cases h
  exact ⟨rfl, 2, by decide, rfl⟩

/-- The conflict of a step that comes too late. -/
def lateStep : StoreError :=
  .conflict (Resource.kind Collection) Sample.arenaKey.toText 3 2

/-- Two passes see the same collection, and both come to a step. The store takes one of them. -/
theorem run_raced :
    ∃ c x y, Run .anything (opening steadyWorld) c ∧ (x ∈ c.diaries ∧ y ∈ c.diaries) ∧
      x.task = ⟨.pass default .autoscaler Sample.arenaKey, .done ()⟩ ∧
      y.task = ⟨.pass default .autoscaler Sample.arenaKey, .done ()⟩ ∧
      (Pass.autoscaler Sample.arenaKey).run.Leads x.past (.done (.ok (some .grow))) ∧
      (Pass.autoscaler Sample.arenaKey).run.Leads y.past (.done (.error (.store lateStep))) := by
  have hstart : Run .anything (opening steadyWorld) (opening steadyWorld) := .refl
  have hbegun := (hstart.tail
    (.begin _ (.pass default .autoscaler Sample.arenaKey) trivial)).tail
    (.begin _ (.pass default .autoscaler Sample.arenaKey) trivial)
  have hlooked := ((((hbegun.tail
    (.serve _ [] [_] _ _ _ _ _ _ rfl (.cached steady_found) trivial)).tail
    (.serve _ [_] [] _ _ _ _ _ _ rfl (.cached steady_found) trivial)).tail
    (.serve _ [] [_] _ _ .now _ ⟨0, 0⟩ _ rfl (.harmless trivial) trivial)).tail
    (.serve _ [_] [] _ _ .now _ ⟨0, 0⟩ _ rfl (.harmless trivial) trivial))
  have hlisted := (hlooked.tail
    (.serve _ [] [_] _ _ (.cachedList .gameServer _ _) _ (.ok Crew.crowdedMembers) _ rfl
      (.cachedList (Crew.past_crowdedMembers rfl)) trivial)).tail
    (.serve _ [_] [] _ _ (.cachedList .gameServer _ _) _ (.ok Crew.crowdedMembers) _ rfl
      (.cachedList (Crew.past_crowdedMembers rfl)) trivial)
  have hstepped := hlisted.tail
    (.serve _ [] [_] _ _ (.update .collection _) _ _ _ (by with_unfolding_all rfl) (.update rfl)
      trivial)
  have hdone := (hstepped.tail
    (.serve _ [] [_] _ _ (.record _) _ () _ rfl (.harmless trivial) trivial)).tail
    (.serve _ [_] [] _ _ (.update .collection _) _ (.error lateStep) _
      (by with_unfolding_all rfl) (.harmless trivial) trivial)
  refine ⟨_, _, _, hdone, ⟨List.mem_cons_self, List.mem_cons_of_mem _ List.mem_cons_self⟩,
    rfl, rfl, ?_, ?_⟩
  · with_unfolding_all exact .cons (.cons (.cons (.cons (.cons (.nil _)))))
  · with_unfolding_all exact .cons (.cons (.cons (.cons (.nil _))))

/-- The other pass ends with a conflict, and has changed nothing. -/
theorem steps_raced :
    ∃ c x y, Run .anything (opening steadyWorld) c ∧ (x ∈ c.diaries ∧ y ∈ c.diaries) ∧
      (∃ d ∈ c.deeds, d.IsOf x ∧ ∃ p, d.Takes Sample.arenaKey p ∧ p.step = .grow) ∧
      ∀ d ∈ c.deeds, d.IsOf y → d.after = d.before := by
  obtain ⟨c, x, y, hrun, ⟨hx, hy⟩, hxtask, hytask, hxresult, hyresult⟩ := run_raced
  have hall := (steps_of_run Sample.arenaKey recorded_steadyWorld hrun).2
  refine ⟨c, x, y, hrun, ⟨hx, hy⟩, ?_, ?_⟩
  · obtain ⟨result, hleads, htaken, -⟩ := hall x (List.mem_append_left _ hx)
      (hxtask ▸ ⟨_, rfl⟩) (by rw [hxtask])
    cases hleads.eq hxresult
    exact htaken .grow rfl
  · obtain ⟨result, hleads, -, hquiet⟩ := hall y (List.mem_append_left _ hy)
      (hytask ▸ ⟨_, rfl⟩) (by rw [hytask])
    cases hleads.eq hyresult
    exact hquiet (by rintro step ⟨⟩)

end Chronicle

end GameFleet
