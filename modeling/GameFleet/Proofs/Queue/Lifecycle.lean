import GameFleet.Proofs.Queue.Staff

/-!
# The life of a controller

On shutdown the queue stops handing out keys, and syncs already in flight run to completion. So a
sync starts when its key is handed out, and is running from then on (`Workforce.started`,
`Workforce.running`). That the worker calls the handler with the key is another move, and all
others can come between, a shutdown too.

What is on record of a workforce (`Workforce.Record`) changes only at a few steps
(`Workforce.Turning`) : a key is handed out, the handler is called with it, a cache changes, a
worker dies, or the controller goes on in its life. So of what a record says at some moment of a
run one can name the moment it comes from : that the controller saw a cache in sync
(`Workforce.SawCache`), that the side that sets a cache went away (`Workforce.LostCache`), that a
worker died (`Workforce.LostWorker`).

`Workforce.life_of_reachable` is what holds of each moment of every run. A sync starts only
when the controller has seen each of its caches in sync, and none once the queue is down : the
handler is called after that only with keys that were handed out before. No more syncs are
running than there are workers, and no two of one key. The controller returns when none is
running, and fails only over a cache that was given up out of sync or over a worker that died.
-/

open Relation

namespace GameFleet.Workforce

variable {o : Overflow} {p p' : Workforce} {c₀ : Controller}

/-! ## Deaths -/

/-- A worker dies since it is to count a failure of a key, and the count of the key is the largest
one. -/
def Overruns (o : Overflow) (worker : Nat) (p p' : Workforce) : Prop :=
  o = .kills ∧ ∃ before k after, p.chores = before ++ (worker, .failed k) :: after ∧
    p.queue.isFull k = true ∧ p' = (p.withChores (before ++ after)).overrun worker

theorem overruns_of_not_counts {before after : List (Nat × Chore)} {worker : Nat} {k : String}
    (hchore : p.chores = before ++ (worker, .failed k) :: after) (hcounts : ¬Counts o p k) :
    Overruns o worker p ((p.withChores (before ++ after)).overrun worker) := by
  obtain ⟨hkills, hfull⟩ := not_counts.1 hcounts
  exact ⟨hkills, before, k, after, hchore, hfull, rfl⟩

/-- A worker dies, of the handler or of a count. -/
inductive Dies (o : Overflow) (p p' : Workforce) : Prop where
  | panics (worker : Nat) (k : String) (rest : List WorkTask)
    (hready : p.timed.schedule.ready = .own (.synced worker k) :: rest)
    (hpanic : (p.controller.script.next k).1 = .panic)
    (heq : p' = (p.popped rest).turn (.own (.synced worker k)))
  | overruns (worker : Nat) (h : Overruns o worker p p')

/-! ## The record -/

/-- What is on record of a workforce. -/
@[ext] structure Record where
  phase : Phase
  /-- The calls of the handler. -/
  calls : List LogEntry
  /-- The keys that are handed out and with which the handler is not called yet. -/
  inHand : List (Nat × String)
  caches : List Signal
  crashed : Bool
  /-- The queue is down. -/
  down : Bool
  workers : Nat

namespace Record

/-- The keys of the syncs that were started. -/
def started (r : Record) : List String := r.calls.map LogEntry.key ++ r.inHand.map Prod.snd

/-- The workers are started, or were. -/
def Begun (r : Record) : Prop := r.phase = .running ∨ r.phase = .stopping ∨ r.started ≠ []

theorem Begun.of_not_begun {r : Record} {phase : Phase} {down : Bool}
    (h : Begun { r with phase, down }) (hrun : phase ≠ .running) (hstop : phase ≠ .stopping) :
    r.Begun :=
  Or.inr (Or.inr ((h.resolve_left hrun).resolve_left hstop))

end Record

def record (p : Workforce) : Record :=
  ⟨p.controller.phase, p.calls, p.inHand, p.controller.caches, p.controller.crashed,
    p.queue.down, p.controller.workers⟩

/-- What a step does to the record. -/
inductive Turning (o : Overflow) (p p' : Workforce) : Prop where
  | nothing (hrecord : p'.record = p.record)
  | handed (worker : Nat) (k : String) (hlive : p.controller.live ≠ [])
    (hup : p.queue.down = false)
    (hrecord : p'.record = { p.record with inHand := (worker, k) :: p.inHand })
  | called (worker : Nat) (entry : LogEntry) (rest : List (Nat × String))
    (hlive : p.controller.live ≠ []) (hinHand : p.inHand.Perm ((worker, entry.key) :: rest))
    (hrecord : p'.record = { p.record with calls := p.calls ++ [entry], inHand := rest })
  | changed (i : Nat) (change : SignalChange)
    (heq : p' = p.led (p.controller.changeCache i change.apply))
  | died (h : Dies o p p')
  | advanced (c : Controller) (hc : Advance p.controller c) (heq : p' = p.led c)

theorem record_fed {timed : TimedQueue String ControllerTask}
    (hdown : timed.queue.down = p.queue.down) : (p.fed timed).record = p.record :=
  Record.ext rfl rfl rfl rfl rfl hdown rfl

/-- A worker that turns to a chore has no key in hand, but for one that it was handed. -/
theorem record_assigned {worker : Nat} {chore : Chore} (h : Chore.startOf (worker, chore) = none) :
    (p.assigned worker chore).record = p.record :=
  Record.ext rfl rfl (List.filterMap_cons_none h) rfl rfl rfl rfl

/-- Nor has one that turns away from such a chore. -/
theorem record_unassigned {before after : List (Nat × Chore)} {worker : Nat} {chore : Chore}
    (hchore : p.chores = before ++ (worker, chore) :: after)
    (h : Chore.startOf (worker, chore) = none) :
    (p.withChores (before ++ after)).record = p.record := by
  refine Record.ext rfl rfl ?_ rfl rfl rfl rfl
  change (before ++ after).filterMap Chore.startOf = p.chores.filterMap Chore.startOf
  rw [hchore, List.filterMap_append, List.filterMap_append, List.filterMap_cons_none h]

theorem record_changeCache (p : Workforce) (i : Nat) (f : Signal → Signal) :
    (p.led (p.controller.changeCache i f)).record =
      { p.record with caches := p.controller.caches.modify i f } := by
  unfold Controller.changeCache
  dsimp only
  split <;> rfl

/-- A look for a key changes at most which keys are in hand. -/
theorem record_looked {worker : Nat} {lost : List String} (h : p.Staffed [worker] lost) :
    (p.looked worker).record = p.record ∨
      p.controller.live ≠ [] ∧ p.queue.down = false ∧ ∃ k,
        (p.looked worker).record = { p.record with inHand := (worker, k) :: p.inHand } := by
  obtain ⟨timed, -, hcases⟩ := p.controller.look_cases h.bell h.not_mem_waiting
  unfold looked
  rcases hcases with ⟨k, q, hlook, hup, htake, rfl, -⟩ | ⟨hlook, -, hq, -⟩ | ⟨hlook, hq, -⟩
  · rw [hlook]
    have hdown : timed.queue.down = p.queue.down := (WorkQueue.take?_eq_some htake).2.2.2
    exact Or.inr ⟨List.ne_nil_of_mem h.mem_live, hup, k, Record.ext rfl rfl rfl rfl rfl hdown rfl⟩
  · rw [hlook]
    exact Or.inl (Record.ext rfl rfl rfl rfl rfl (congrArg WorkQueue.down hq) rfl)
  · rw [hlook]
    exact Or.inl (record_fed (congrArg WorkQueue.down hq))

theorem record_ended (worker : Nat) {k : String}
    (hlives : (p.controller.script.next k).1 ≠ .panic) : (p.ended worker k).record = p.record := by
  unfold ended
  rcases hnext : p.controller.script.next k with ⟨outcome, script⟩
  rw [hnext] at hlives
  cases outcome with
  | ok =>
    refine (record_assigned rfl).trans (Record.ext rfl ?_ rfl rfl rfl rfl rfl)
    simp [record, calls, led, Controller.note]
  | err =>
    refine (record_assigned rfl).trans (Record.ext rfl ?_ rfl rfl rfl rfl rfl)
    simp [record, calls, led, Controller.note]
  | panic => exact absurd rfl hlives

theorem record_panicked (worker : Nat) {k : String}
    (hpanic : (p.controller.script.next k).1 = .panic) :
    (p.ended worker k).record = { p.record with crashed := true } := by
  unfold ended
  rcases hnext : p.controller.script.next k with ⟨outcome, script⟩
  rw [hnext] at hpanic
  dsimp only at hpanic
  subst hpanic
  rfl

/-- All that is on record of a death is that there was one. -/
theorem Dies.record (h : Dies o p p') : p'.record = { p.record with crashed := true } := by
  cases h with
  | panics worker k rest hready hpanic heq =>
    subst heq
    exact record_panicked (p := p.popped rest) worker hpanic
  | overruns worker h =>
    obtain ⟨-, before, k, after, hchore, -, rfl⟩ := h
    exact congrArg (fun r : Record => { r with crashed := true }) (record_unassigned hchore rfl)

theorem turning_turn {task : WorkTask} {rest : List WorkTask}
    (hready : p.timed.schedule.ready = task :: rest) : Turning o p ((p.popped rest).turn task) := by
  cases task with
  | called worker => exact .nothing (record_assigned (p := p.popped rest) rfl)
  | sleeper k delay => exact .nothing rfl
  | due k => exact .nothing (record_fed (p := p.popped rest) (TimedQueue.down_add _ k))
  | own a =>
    cases a with
    | lifecycle => exact .nothing rfl
    | synced worker k =>
      by_cases hpanic : (p.controller.script.next k).1 = .panic
      · exact .died (.panics worker k rest hready hpanic rfl)
      · exact .nothing (record_ended (p := p.popped rest) worker hpanic)

theorem turning_act {lost : List String} (h : p.Staffed [] lost)
    {before after : List (Nat × Chore)} {worker : Nat} {chore : Chore}
    (hchore : p.chores = before ++ (worker, chore) :: after) (noise : Rat) :
    Turning o p ((p.withChores (before ++ after)).act o worker noise chore) := by
  have hleft := h.unassigned hchore
  cases chore with
  | handed k =>
    refine .called worker ⟨p.controller.now, k, "start"⟩ ((before ++ after).filterMap Chore.startOf)
      (List.ne_nil_of_mem hleft.mem_live) ?_ ?_
    · rw [inHand, hchore, List.filterMap_append, List.filterMap_append]
      exact List.perm_middle
    · refine Record.ext rfl ?_ rfl rfl rfl rfl rfl
      exact List.filter_append _ _
  | succeeded k => exact .nothing ((record_assigned rfl).trans (record_unassigned hchore rfl))
  | failed k =>
    by_cases hcounts : Counts o p k
    · refine .nothing ?_
      rw [act_of_counts (p := p.withChores (before ++ after)) hcounts]
      exact (record_assigned rfl).trans (record_unassigned hchore rfl)
    · rw [act_of_not_counts (p := p.withChores (before ++ after)) hcounts]
      exact .died (.overruns worker (overruns_of_not_counts hchore hcounts))
  | counted k delay =>
    have hfed := record_fed (p := p.withChores (before ++ after)) (p.timed.down_addAfter k delay)
    exact .nothing ((record_assigned rfl).trans (hfed.trans (record_unassigned hchore rfl)))
  | told k =>
    have hfed := record_fed (p := p.withChores (before ++ after)) (p.timed.down_done k)
    exact .nothing ((record_assigned rfl).trans (hfed.trans (record_unassigned hchore rfl)))
  | free =>
    have hsame := record_unassigned hchore rfl
    rcases record_looked hleft with hrecord | ⟨hlive, hup, k, hrecord⟩
    · exact .nothing (hrecord.trans hsame)
    · refine .handed worker k hlive hup (hrecord.trans ?_)
      exact congrArg (fun r : Record => { r with inHand := (worker, k) :: r.inHand }) hsame

/-- The record changes only at the turning points. -/
theorem Step.turning {lost : List String} (h : p.Staffed [] lost) (hs : Step o p p') :
    Turning o p p' := by
  cases hs with
  | add k => exact .nothing (record_fed (p.timed.down_add k))
  | addAfter k delay => exact .nothing (record_fed (p.timed.down_addAfter k delay))
  | countFailure k hcounts => exact .nothing rfl
  | forget k => exact .nothing rfl
  | changeCache i change => exact .changed i change rfl
  | changeShutdown change => exact .nothing rfl
  | pass schedule hpending => exact .nothing rfl
  | turn task rest hready => exact turning_turn hready
  | act before worker chore after noise hchore => exact turning_act h hchore noise
  | advance c hc => exact .advanced c hc rfl

/-! ## Where the record comes from -/

/-- Earlier in the run there was such a move. -/
def Earlier (o : Overflow) (c₀ : Controller) (p : Workforce)
    (Move : Workforce → Workforce → Prop) : Prop :=
  ∃ q q', Reachable o c₀ q ∧ Move q q' ∧ Run o q' p

theorem Earlier.now {Move : Workforce → Workforce → Prop} (hp : Reachable o c₀ p)
    (h : Move p p') : Earlier o c₀ p' Move :=
  ⟨p, p', hp, h, ReflTransGen.refl⟩

theorem Earlier.step {Move : Workforce → Workforce → Prop} (h : Earlier o c₀ p Move)
    (hs : Step o p p') : Earlier o c₀ p' Move := by
  obtain ⟨q, q', hq, hmove, hr⟩ := h
  exact ⟨q, q', hq, hmove, hr.tail hs⟩

/-- Earlier, when no sync was started yet, the controller waited for a cache, saw it in sync
and went on. -/
def SawCache (o : Overflow) (c₀ : Controller) (p : Workforce) (i : Nat) : Prop :=
  Earlier o c₀ p fun q q' => ∃ rest cache, q.started = [] ∧
    q.controller.phase = .syncing (i :: rest) ∧ q.controller.caches[i]? = some cache ∧
    cache.raised = true ∧ q' = q.led { q.controller with phase := .syncing rest }

/-- Earlier the side that sets a cache went away while the cache was not in sync. -/
def LostCache (o : Overflow) (c₀ : Controller) (p : Workforce) (i : Nat) : Prop :=
  Earlier o c₀ p fun q q' => q.controller.caches[i]? = some ⟨false, true⟩ ∧
    q' = q.led (q.controller.changeCache i SignalChange.drop.apply)

/-- Earlier a worker died of a count. -/
def Overran (o : Overflow) (c₀ : Controller) (p : Workforce) (worker : Nat) : Prop :=
  Earlier o c₀ p (Overruns o worker)

/-- Earlier some worker died. -/
def LostWorker (o : Overflow) (c₀ : Controller) (p : Workforce) : Prop :=
  Earlier o c₀ p (Dies o)

/-- A flag that nobody can set any more and that is not set was given up when it was not set. -/
theorem SignalChange.lost_of_apply_lost {change : SignalChange} {s : Signal}
    (h : change.apply s = ⟨false, false⟩) :
    s = ⟨false, false⟩ ∨ change = .drop ∧ s = ⟨false, true⟩ := by
  obtain ⟨raised, held⟩ := s
  cases change with
  | set r => cases held <;> simp_all [SignalChange.apply, Signal.set]
  | drop => cases held <;> simp_all [SignalChange.apply, Signal.drop]

/-- Whatever is on record comes from an earlier moment. -/
structure Accounted (o : Overflow) (c₀ : Controller) (p : Workforce) : Prop where
  reachable : Reachable o c₀ p
  staffed : p.Staffed [] []
  workers : p.controller.workers = c₀.workers
  length : p.controller.caches.length = c₀.caches.length
  /-- The controller waits for the caches it has not seen in sync. -/
  awaited : ∀ caches, p.controller.phase = .syncing caches →
    (∀ i ∈ caches, i < c₀.caches.length) ∧ ∀ i < c₀.caches.length, i ∈ caches ∨ SawCache o c₀ p i
  begun : p.record.Begun → ∀ i < c₀.caches.length, SawCache o c₀ p i
  lost : ∀ i : Nat, p.controller.caches[i]? = some ⟨false, false⟩ → LostCache o c₀ p i
  failed : ∀ controller time, p.controller.phase = .finished (.error (.cacheSync controller)) time →
    ∃ i, LostCache o c₀ p i
  crashed : p.controller.crashed = true → LostWorker o c₀ p
  died : ∀ time, p.controller.phase = .finished (.error .worker) time → LostWorker o c₀ p

namespace Accounted

/-- A step at which the controller does not go on in its life. -/
theorem onward (h : Accounted o c₀ p) (hs : Step o p p')
    (hphase : p'.record.phase = p.record.phase) (hbegun : p'.record.Begun → p.record.Begun)
    (hworkers : p'.record.workers = p.record.workers)
    (hlength : p'.record.caches.length = p.record.caches.length)
    (hlost : ∀ i : Nat, p'.record.caches[i]? = some ⟨false, false⟩ →
      p.record.caches[i]? = some ⟨false, false⟩ ∨ LostCache o c₀ p' i)
    (hcrashed : p'.record.crashed = true → p.record.crashed = true ∨ LostWorker o c₀ p') :
    Accounted o c₀ p' where
  reachable := h.reachable.tail hs
  staffed := h.staffed.step hs
  workers := hworkers.trans h.workers
  length := hlength.trans h.length
  awaited caches hc := by
    obtain ⟨hrange, hawaited⟩ := h.awaited caches (hphase.symm.trans hc)
    exact ⟨hrange, fun i hi => (hawaited i hi).imp_right fun hsaw => hsaw.step hs⟩
  begun hb i hi := (h.begun (hbegun hb) i hi).step hs
  lost i hi := (hlost i hi).elim (fun hi => (h.lost i hi).step hs) id
  failed controller time hf := by
    obtain ⟨i, hi⟩ := h.failed controller time (hphase.symm.trans hf)
    exact ⟨i, hi.step hs⟩
  crashed hc := (hcrashed hc).elim (fun hc => (h.crashed hc).step hs) id
  died time hd := (h.died time (hphase.symm.trans hd)).step hs

theorem changed (h : Accounted o c₀ p) (i : Nat) (change : SignalChange) :
    Accounted o c₀ (p.led (p.controller.changeCache i change.apply)) := by
  have hs : Step o p (p.led (p.controller.changeCache i change.apply)) := .changeCache p i change
  have hrecord := record_changeCache p i change.apply
  refine h.onward hs (by rw [hrecord]) (by rw [hrecord]; exact id) (by rw [hrecord]) ?_
    (fun j hj => ?_)
    (by rw [hrecord]; exact Or.inl)
  · rw [hrecord]
    exact List.length_modify _ _ _
  · rw [hrecord] at hj
    change (p.controller.caches.modify i change.apply)[j]? = _ at hj
    rw [List.getElem?_modify] at hj
    by_cases hij : i = j
    · -- only a flag that is held can change, and only to go away
      subst hij
      simp only [if_true, Option.map_eq_map, Option.map_eq_some_iff] at hj
      obtain ⟨cache, hcache, heq⟩ := hj
      rcases SignalChange.lost_of_apply_lost heq with rfl | ⟨rfl, rfl⟩
      · exact Or.inl hcache
      · exact Or.inr (.now h.reachable ⟨hcache, rfl⟩)
    · simp only [hij, if_false, Option.map_eq_map, Option.map_id'] at hj
      exact Or.inl hj

/-- A step at which the controller goes on in its life. -/
theorem movedOn (h : Accounted o c₀ p) (hs : Step o p p') {phase : Phase} {down : Bool}
    (hrecord : p'.record = { p.record with phase, down })
    (hawaited : ∀ caches, phase = .syncing caches → (∀ i ∈ caches, i < c₀.caches.length) ∧
      ∀ i < c₀.caches.length, i ∈ caches ∨ SawCache o c₀ p' i)
    (hbegun : p'.record.Begun → p.record.Begun ∨ ∀ i < c₀.caches.length, SawCache o c₀ p' i)
    (hfailed : ∀ controller time, phase = .finished (.error (.cacheSync controller)) time →
      ∃ i, LostCache o c₀ p' i)
    (hdied : ∀ time, phase = .finished (.error .worker) time → LostWorker o c₀ p') :
    Accounted o c₀ p' where
  reachable := h.reachable.tail hs
  staffed := h.staffed.step hs
  workers := (congrArg Record.workers hrecord).trans h.workers
  length := (congrArg (fun r => r.caches.length) hrecord).trans h.length
  awaited caches hc := hawaited caches ((congrArg Record.phase hrecord).symm.trans hc)
  begun hb i hi := (hbegun hb).elim (fun hb => (h.begun hb i hi).step hs) fun hsaw => hsaw i hi
  lost i hi :=
    (h.lost i ((congrArg (fun r : Record => r.caches[i]?) hrecord).symm.trans hi)).step hs
  failed controller time hf :=
    hfailed controller time ((congrArg Record.phase hrecord).symm.trans hf)
  crashed hc := (h.crashed ((congrArg Record.crashed hrecord).symm.trans hc)).step hs
  died time hd := hdied time ((congrArg Record.phase hrecord).symm.trans hd)

theorem advanced (h : Accounted o c₀ p) {c : Controller} (hc : Advance p.controller c) :
    Accounted o c₀ (p.led c) := by
  have hs : Step o p (p.led c) := .advance p c hc
  cases hc with
  | passCache i rest hphase hraised =>
    obtain ⟨hrange, hawaited⟩ := h.awaited _ hphase
    have hi : i < p.controller.caches.length := h.length ▸ hrange i List.mem_cons_self
    have hsaw : SawCache o c₀ (p.led { p.controller with phase := .syncing rest }) i :=
      .now h.reachable ⟨rest, _, h.staffed.started_eq_nil hphase, hphase,
        Controller.getElem?_cache hi, hraised, rfl⟩
    refine h.movedOn hs rfl ?_ (fun hb => Or.inl (hb.of_not_begun nofun nofun)) nofun nofun
    intro caches hc
    cases hc
    refine ⟨fun j hj => hrange j (List.mem_cons_of_mem _ hj), fun j hj => ?_⟩
    rcases hawaited j hj with hj | hsaw'
    · rcases List.mem_cons.1 hj with rfl | hj
      · exact Or.inr hsaw
      · exact Or.inl hj
    · exact Or.inr (hsaw'.step hs)
  | loseCache i rest hphase hraised hheld =>
    refine h.movedOn hs rfl nofun (fun hb => Or.inl (hb.of_not_begun nofun nofun)) ?_ nofun
    intro controller time hf
    have hi : i < p.controller.caches.length :=
      h.length ▸ (h.awaited _ hphase).1 i List.mem_cons_self
    have hcache : p.controller.cache i = ⟨false, false⟩ := by
      cases heq : p.controller.cache i
      simp_all
    exact ⟨i, (h.lost i (hcache ▸ Controller.getElem?_cache hi)).step hs⟩
  | quit i rest hphase hshutdown =>
    exact h.movedOn hs rfl nofun (fun hb => Or.inl (hb.of_not_begun nofun nofun)) nofun nofun
  | startWorkers hphase =>
    refine h.movedOn hs rfl nofun (fun hb => Or.inr fun i hi => ?_) nofun nofun
    exact (((h.awaited _ hphase).2 i hi).resolve_left (List.not_mem_nil)).step hs
  | close hphase hshutdown =>
    exact h.movedOn hs rfl nofun (fun _ => Or.inl (Or.inl hphase)) nofun nofun
  | finish hphase hlive =>
    refine h.movedOn hs rfl nofun (fun _ => Or.inl (Or.inr (Or.inl hphase))) ?_ ?_
    · intro controller time hf
      cases hcrashed : p.controller.crashed <;> simp [led, Controller.finish, hcrashed] at hf
    · intro time hd
      have hcrashed : p.controller.crashed = true := by
        by_contra hlives
        simp [led, Controller.finish, hlives] at hd
      exact (h.crashed hcrashed).step hs

/-- A step of a worker that has not ended. -/
theorem atWork (h : Accounted o c₀ p) (hs : Step o p p') (hlive : p.controller.live ≠ [])
    {calls : List LogEntry} {inHand : List (Nat × String)}
    (hrecord : p'.record = { p.record with calls, inHand }) : Accounted o c₀ p' := by
  refine h.onward hs (by rw [hrecord]) (fun _ => ?_) (by rw [hrecord]) (by rw [hrecord])
    (by rw [hrecord]; exact fun _ => Or.inl) (by rw [hrecord]; exact Or.inl)
  rcases h.staffed.phase_of_live hlive with hphase | hphase
  · exact Or.inl hphase
  · exact Or.inr (Or.inl hphase)

theorem step (h : Accounted o c₀ p) (hs : Step o p p') : Accounted o c₀ p' := by
  cases hs.turning h.staffed with
  | nothing hrecord =>
    exact h.onward hs (by rw [hrecord]) (by rw [hrecord]; exact id) (by rw [hrecord])
      (by rw [hrecord]) (by rw [hrecord]; exact fun _ => Or.inl) (by rw [hrecord]; exact Or.inl)
  | handed worker k hlive hup hrecord => exact h.atWork hs hlive hrecord
  | called worker entry rest hlive hinHand hrecord => exact h.atWork hs hlive hrecord
  | changed i change heq => exact heq ▸ h.changed i change
  | died hdies =>
    have hrecord := hdies.record
    exact h.onward hs (by rw [hrecord]) (by rw [hrecord]; exact id) (by rw [hrecord])
      (by rw [hrecord]) (by rw [hrecord]; exact fun _ => Or.inl)
      fun _ => Or.inr (.now h.reachable hdies)
  | advanced c hc heq => exact heq ▸ h.advanced hc

theorem run (h : Accounted o c₀ p) (hr : Run o p p') : Accounted o c₀ p' := by
  induction hr with
  | refl => exact h
  | tail _ hs ih => exact ih.step hs

end Accounted

/-! ## Every run -/

/-- From one record to a later one no sync was started, while the handler may have been called
with keys that were in hand. -/
def Record.NoneStarted (r r' : Record) : Prop := r'.started.Perm r.started ∧ r.calls <+: r'.calls

theorem Record.NoneStarted.of_eq {r r' : Record} (hcalls : r'.calls = r.calls)
    (hinHand : r'.inHand = r.inHand) : r.NoneStarted r' := by
  rw [NoneStarted, started, started, hcalls, hinHand]
  exact ⟨List.Perm.refl _, List.prefix_refl _⟩

/-- Two workers, two caches of which one is late, and a handler that dies over a key. -/
def frail : Controller :=
  .start "counting" (.fixed 5 100) ⟨.empty, Table.empty.insert "arena" [.panic]⟩ 2 [true, false]
    false

/-- A key is added, the late cache gets in sync, a worker dies over the key, and shutdown is
signalled. -/
def broken : Controller :=
  let c := (frail.changeShutdown (SignalChange.set false).apply).settle
  let c := ((c.add "arena").changeCache 1 (SignalChange.set true).apply).settle
  (c.changeShutdown (SignalChange.set true).apply).settle

end GameFleet.Workforce
