import GameFleet.Proofs.Queue.Workforce

/-!
# Where workers are and what they hold

A worker that has not ended is at one place (`Workforce.places`) : it waits at the bell, was
called, is at a sync or has a chore. Of these workers some hold keys (`Workforce.held`), each
its own. `Workforce.Staffed` says so of a workforce in which some workers and keys are at
hand, between two places : what a step takes up it puts down again, so steps are put together
from moves with something at hand (`Workforce.Staffed.popped`, `Workforce.Staffed.assigned`
and the lemmas beside them), and every step keeps a workforce staffed
(`Workforce.Staffed.step`). The keys of workers that died are at hand for good : they are
processing, and nobody gets them again.
-/

open Relation

namespace GameFleet

namespace Controller

variable {c : Controller} {worker : Nat}

/-! ## A worker's look for a key -/

/-- A worker that looks for a key is handed one, ends since the queue is down, or waits. -/
theorem look_cases (hbell : c.timed.bell.Sound) (hw : worker ∉ c.timed.bell.waiting) :
    ∃ timed : TimedQueue String ControllerTask, timed.bell.Sound ∧
      ((∃ k q, c.look worker = (some k, { c with timed }) ∧ c.queue.down = false ∧
          c.queue.take? = some (k, q) ∧ timed.queue = q ∧ timed.tasks.Perm c.timed.tasks) ∨
        (c.look worker = (none, { c with timed, live := c.live.erase worker }) ∧
          c.queue.down = true ∧ timed.queue = c.queue ∧
          timed.tasks.Perm (.own .lifecycle :: c.timed.tasks)) ∨
        (c.look worker = (none, { c with timed }) ∧ timed.queue = c.queue ∧
          timed.tasks.Perm (.called worker :: c.timed.tasks))) := by
  obtain ⟨hsound, htasks⟩ := TimedQueue.attempt_summons hbell hw
  have hclosed := c.timed.down_of_attempt_closed worker
  have hcases := c.timed.attempt_cases worker
  unfold look
  rcases hattempt : c.timed.attempt worker with ⟨result, timed⟩
  rw [hattempt] at hsound htasks hclosed hcases
  cases result with
  | got k =>
    obtain ⟨j, q, hup, htake, hj, hq⟩ := hcases.resolve_right fun h => h.1 k rfl
    obtain rfl : k = j := Attempt.got.inj hj
    exact ⟨timed, hsound, Or.inl ⟨k, q, rfl, hup, htake, hq, htasks⟩⟩
  | closed =>
    obtain ⟨-, hq⟩ := hcases.resolve_left fun ⟨_, _, _, _, hk, _⟩ => nomatch hk
    have hs := TimedQueue.summons_scheduled [_]
      (timed.schedule.pending_spawn_perm (.own .lifecycle))
    exact ⟨{ timed with schedule := timed.schedule.spawn (.own .lifecycle) }, hsound,
      Or.inr (Or.inl ⟨rfl, hclosed rfl, hq, hs.tasks.trans (htasks.cons _)⟩)⟩
  | blocked =>
    obtain ⟨-, hq⟩ := hcases.resolve_left fun ⟨_, _, _, _, hk, _⟩ => nomatch hk
    exact ⟨timed, hsound, Or.inr (Or.inr ⟨rfl, hq, htasks⟩)⟩

/-- A sync that begins is to end. -/
theorem summons_beginSync (c : Controller) (worker : Nat) (k : String) :
    c.timed.Summons (c.beginSync worker k).timed [.own (.synced worker k)] := by
  refine TimedQueue.summons_scheduled [_] ?_
  split
  · exact List.Perm.refl _
  · exact c.timed.schedule.pending_sleep_perm _ _

end Controller

/-- The worker whose turn a task is. -/
def QueueTask.workerOf : WorkTask → Option Nat
  | .called worker | .own (.synced worker _) => some worker
  | _ => none

/-- The sync that a task is the end of. -/
def QueueTask.syncOf : WorkTask → Option (Nat × String)
  | .own (.synced worker k) => some (worker, k)
  | _ => none

/-- The key that a worker with a chore holds. -/
def Chore.key? : Chore → Option String
  | .handed k | .succeeded k | .failed k | .counted k _ | .told k => some k
  | .free => none

/-- The sync that a worker is about to begin. -/
def Chore.startOf : Nat × Chore → Option (Nat × String)
  | (worker, .handed k) => some (worker, k)
  | _ => none

namespace Workforce

variable {o : Overflow} {p p' : Workforce} {worker : Nat} {ws : List Nat} {ks lost : List String}

/-! ## Workers and keys -/

/-- The syncs whose keys are handed out and of which the handler is not called yet. -/
def inHand (p : Workforce) : List (Nat × String) := p.chores.filterMap Chore.startOf

/-- The syncs at which the handler is, with their workers. -/
def syncing (p : Workforce) : List (Nat × String) := p.timed.tasks.filterMap QueueTask.syncOf

/-- The syncs that are running : from when a key is handed out until the task at the end of its
sync takes its turn. -/
def running (p : Workforce) : List (Nat × String) := p.inHand ++ p.syncing

/-- The calls of the handler, with their times. -/
def calls (p : Workforce) : List LogEntry := p.controller.log.filter fun e => e.what = "start"

/-- The keys of the syncs that were started. A sync starts when its key is handed out, which is
before the handler is called with it. -/
def started (p : Workforce) : List String := p.calls.map LogEntry.key ++ p.inHand.map Prod.snd

/-- Where the workers are : at the bell, called, at a sync, or with a chore. -/
def places (p : Workforce) : List Nat :=
  p.timed.tasks.filterMap QueueTask.workerOf ++ p.chores.map Prod.fst

/-- The keys that workers hold. -/
def held (p : Workforce) : List String :=
  p.syncing.map Prod.snd ++ p.chores.filterMap fun e => e.2.key?

/-- A task whose turn it is was the first to be ready. -/
theorem summons_popped {task : WorkTask} {rest : List WorkTask}
    (hready : p.timed.schedule.ready = task :: rest) :
    (p.popped rest).timed.Summons p.timed [task] := by
  have hpending : p.timed.schedule.pending = task :: (p.popped rest).timed.pending := by
    rw [Schedule.pending, hready]
    rfl
  exact TimedQueue.summons_of_bell_eq [task] rfl (List.Perm.of_eq hpending)

theorem places_perm (new : List WorkTask)
    (htasks : p'.timed.tasks.Perm (new ++ p.timed.tasks)) (hchores : p'.chores = p.chores) :
    p'.places.Perm (new.filterMap QueueTask.workerOf ++ p.places) := by
  have h := htasks.filterMap QueueTask.workerOf
  rw [List.filterMap_append] at h
  rw [places, places, hchores, ← List.append_assoc]
  exact h.append_right _

theorem syncing_perm (new : List WorkTask)
    (htasks : p'.timed.tasks.Perm (new ++ p.timed.tasks)) :
    p'.syncing.Perm (new.filterMap QueueTask.syncOf ++ p.syncing) := by
  have h := htasks.filterMap QueueTask.syncOf
  rwa [List.filterMap_append] at h

theorem held_perm (new : List WorkTask)
    (htasks : p'.timed.tasks.Perm (new ++ p.timed.tasks)) (hchores : p'.chores = p.chores) :
    p'.held.Perm ((new.filterMap QueueTask.syncOf).map Prod.snd ++ p.held) := by
  have h := (syncing_perm new htasks).map Prod.snd
  rw [List.map_append] at h
  rw [held, held, hchores, ← List.append_assoc]
  exact h.append_right _

/-- Tasks of nobody change neither where workers are nor what they hold. -/
theorem places_held_perm {new : List WorkTask}
    (htasks : p'.timed.tasks.Perm (new ++ p.timed.tasks))
    (hnew : ∀ task ∈ new, task.workerOf = none)
    (hchores : p'.chores = p.chores) : p'.places.Perm p.places ∧ p'.held.Perm p.held := by
  have hcomers : new.filterMap QueueTask.workerOf = [] := List.filterMap_eq_nil_iff.2 hnew
  have hsyncs : new.filterMap QueueTask.syncOf = [] := by
    refine List.filterMap_eq_nil_iff.2 fun task ht => ?_
    have hnone := hnew task ht
    cases task with
    | own a => cases a <;> simp_all [QueueTask.workerOf, QueueTask.syncOf]
    | _ => rfl
  have hplaces := places_perm new htasks hchores
  have hheld := held_perm new htasks hchores
  rw [hcomers] at hplaces
  rw [hsyncs] at hheld
  exact ⟨hplaces, hheld⟩

/-- A worker with a chore is at a place of its own, with the key that it holds. -/
theorem places_held_chore {worker : Nat} {chore : Chore}
    (hchores : p.chores.Perm ((worker, chore) :: p'.chores)) (htimed : p'.timed = p.timed) :
    p.places.Perm (worker :: p'.places) ∧ p.held.Perm (chore.key?.toList ++ p'.held) := by
  have hsyncing : p'.syncing = p.syncing := congrArg (·.tasks.filterMap QueueTask.syncOf) htimed
  have hkeys := (hchores.filterMap fun e => e.2.key?).append_left (p.syncing.map Prod.snd)
  refine ⟨?_, hkeys.trans ?_⟩
  · rw [places, places, htimed]
    exact ((hchores.map Prod.fst).append_left _).trans List.perm_middle
  · rw [held, hsyncing]
    cases hkey : chore.key? with
    | none => simp [hkey]
    | some k =>
      simp only [List.filterMap_cons, hkey]
      exact List.perm_middle

/-- What a phase says of a controller whose queue is down or not. -/
def Fits (c : Controller) (down : Bool) : Prop :=
  match c.phase with
  | .syncing _ => c.live = [] ∧ c.log.filter (fun e => e.what = "start") = [] ∧ down = false
  | .running => down = false
  | .stopping => True
  | .finished _ _ => c.live = []

/-- What a phase says stays true of a controller that is at work. -/
theorem fits_of_live {c c' : Controller} {down : Bool} (h : Fits c down)
    (hphase : c'.phase = c.phase) (hwork : c.phase = .running ∨ c.phase = .stopping) :
    Fits c' down := by
  unfold Fits at h ⊢
  rcases hwork with hrun | hstop
  · rw [hrun] at h
    rw [hphase, hrun]
    exact h
  · rw [hphase, hstop]
    trivial

/-- Each worker that has not ended is at one place, but for `ws`, and the keys that workers
hold, with `ks`, are different and processing. -/
structure Staffed (p : Workforce) (ws : List Nat) (ks : List String) : Prop where
  bell : p.timed.bell.Sound
  queue : p.queue.Sound
  held_nodup : (ks ++ p.held).Nodup
  processing : ∀ k ∈ ks ++ p.held, k ∈ p.queue.processing
  places : (ws ++ p.places).Perm p.controller.live
  live : p.controller.live.Sublist (List.range (max p.controller.workers 1))
  fits : Fits p.controller p.queue.down

/-- What was taken up is beside what is at hand already. -/
theorem taken_up_perm {up held left : List String} (h : held.Perm (up ++ left)) :
    ((up ++ lost) ++ left).Perm (lost ++ held) := by
  rw [List.append_assoc]
  exact (List.perm_append_comm_assoc _ _ _).trans (h.symm.append_left lost)

namespace Staffed

theorem live_nodup (h : p.Staffed ws ks) : p.controller.live.Nodup :=
  h.live.nodup List.nodup_range

/-- Workers move and keys change hands while no key is handed out or taken back. -/
theorem move {ws' : List Nat} {ks' : List String} (h : p.Staffed ws ks)
    (hplaces : (ws' ++ p'.places).Perm (ws ++ p.places))
    (hheld : (ks' ++ p'.held).Perm (ks ++ p.held))
    (hbell : p'.timed.bell.Sound) (hqueue : p.queue.Grows p'.queue)
    (hlive : p'.controller.live = p.controller.live)
    (hworkers : p'.controller.workers = p.controller.workers)
    (hfits : Fits p'.controller p'.queue.down) : p'.Staffed ws' ks' where
  bell := hbell
  queue := hqueue.sound h.queue
  held_nodup := hheld.nodup_iff.2 h.held_nodup
  processing k hk := hqueue.processing ▸ h.processing k (hheld.mem_iff.1 hk)
  places := hlive ▸ hplaces.trans h.places
  live := hlive ▸ hworkers ▸ h.live
  fits := hfits

/-- Something is done with the controller, while no worker starts or ends and no key is handed
out or taken back. -/
theorem onward (h : p.Staffed ws ks) {new : List WorkTask}
    (hs : p.timed.Summons p'.timed new) (hnew : ∀ task ∈ new, task.workerOf = none)
    (hchores : p'.chores = p.chores) (hqueue : p.queue.Grows p'.queue)
    (hlive : p'.controller.live = p.controller.live)
    (hworkers : p'.controller.workers = p.controller.workers)
    (hfits : Fits p'.controller p'.queue.down) : p'.Staffed ws ks := by
  obtain ⟨hplaces, hheld⟩ := places_held_perm hs.tasks hnew hchores
  exact h.move (hplaces.append_left ws) (hheld.append_left ks) (hs.bell h.bell) hqueue hlive
    hworkers hfits

/-- Something is done at the queue, but for taking it down. -/
theorem fed (h : p.Staffed ws ks) {timed : TimedQueue String ControllerTask}
    {new : List WorkTask} (hs : p.timed.Summons timed new)
    (hnew : ∀ task ∈ new, task.workerOf = none) (hqueue : p.queue.Grows timed.queue)
    (hdown : timed.queue.down = p.queue.down) : (p.fed timed).Staffed ws ks :=
  h.onward hs hnew rfl hqueue rfl rfl (hdown.symm ▸ h.fits)

/-- Something is done away from the queue. -/
theorem led (h : p.Staffed ws ks) {c : Controller} (htimed : c.timed = p.controller.timed)
    (hlive : c.live = p.controller.live) (hworkers : c.workers = p.controller.workers)
    (hfits : Fits c p.queue.down) : (p.led c).Staffed ws ks := by
  have hqueue : c.timed.queue = p.queue := congrArg TimedQueue.queue htimed
  have hs : p.timed.Summons c.timed [] := by
    rw [htimed]
    exact TimedQueue.summons_of_bell_eq [] rfl (List.Perm.refl _)
  refine h.onward hs (by simp) rfl (WorkQueue.Grows.of_eq hqueue) hlive hworkers ?_
  change Fits c c.timed.queue.down
  rwa [hqueue]

/-- A task whose turn it is has gone, and what it carries is at hand. -/
theorem popped (h : p.Staffed [] lost) {task : WorkTask} {rest : List WorkTask}
    (hready : p.timed.schedule.ready = task :: rest) :
    (p.popped rest).Staffed ([task].filterMap QueueTask.workerOf)
      (([task].filterMap QueueTask.syncOf).map Prod.snd ++ lost) := by
  have hs := summons_popped hready
  exact h.move (places_perm [task] hs.tasks rfl).symm
    (taken_up_perm (held_perm [task] hs.tasks rfl)) h.bell (WorkQueue.Grows.refl _) rfl rfl h.fits

/-- A worker turns to a chore, which is its own from then on. -/
theorem assigned {worker : Nat} (chore : Chore)
    (h : p.Staffed [worker] (chore.key?.toList ++ lost)) :
    (p.assigned worker chore).Staffed [] lost := by
  obtain ⟨hplaces, hheld⟩ :=
    places_held_chore (p := p.assigned worker chore) (List.Perm.refl ((worker, chore) :: p.chores))
      rfl
  exact h.move hplaces (taken_up_perm hheld).symm h.bell (WorkQueue.Grows.refl _) rfl rfl h.fits

/-- A worker turns away from a chore. -/
theorem unassigned (h : p.Staffed [] lost) {before after : List (Nat × Chore)} {worker : Nat}
    {chore : Chore} (hchore : p.chores = before ++ (worker, chore) :: after) :
    (p.withChores (before ++ after)).Staffed [worker] (chore.key?.toList ++ lost) := by
  have hchores : p.chores.Perm ((worker, chore) :: (p.withChores (before ++ after)).chores) := by
    rw [hchore]
    exact List.perm_middle
  obtain ⟨hplaces, hheld⟩ := places_held_chore hchores rfl
  exact h.move hplaces.symm (taken_up_perm hheld) h.bell (WorkQueue.Grows.refl _) rfl rfl h.fits

/-- A key is with nobody any more. -/
theorem lose {k : String} (h : p.Staffed ws (k :: ks)) : p.Staffed ws ks where
  bell := h.bell
  queue := h.queue
  held_nodup := (List.nodup_cons.1 h.held_nodup).2
  processing j hj := h.processing j (List.mem_cons_of_mem _ hj)
  places := h.places
  live := h.live
  fits := h.fits

/-- A key is given back. No other worker holds it, so the others hold theirs as before. -/
theorem given {k : String} (h : p.Staffed ws (k :: ks)) :
    (p.fed (p.timed.done k)).Staffed ws ks := by
  have hqueue : (p.timed.done k).queue = (p.queue.done k).1 := p.timed.queue_done k
  have hs : p.timed.Summons (p.fed (p.timed.done k)).timed [] := TimedQueue.summons_done k
  obtain ⟨hplaces, hheld⟩ := places_held_perm hs.tasks (by simp) rfl
  have hnd := List.nodup_cons.1 h.held_nodup
  have hkeys := hheld.append_left ks
  refine ⟨hs.bell h.bell, ?_, hkeys.nodup_iff.2 hnd.2, fun j hj => ?_,
    (hplaces.append_left ws).trans h.places, h.live, ?_⟩
  · change (p.timed.done k).queue.Sound
    rw [hqueue]
    exact h.queue.done (h.processing k List.mem_cons_self)
  · have hj : j ∈ ks ++ p.held := hkeys.mem_iff.1 hj
    have hne : j ≠ k := fun heq => hnd.1 (heq ▸ hj)
    change j ∈ (p.timed.done k).queue.processing
    rw [hqueue, WorkQueue.done_eq, List.mem_filter]
    exact ⟨h.processing j (List.mem_cons_of_mem _ hj), by simpa using hne⟩
  · change Fits p.controller (p.timed.done k).queue.down
    rw [hqueue, WorkQueue.down_done]
    exact h.fits

theorem not_mem_places (h : p.Staffed (worker :: ws) ks) : worker ∉ p.places := by
  have hnd := h.places.nodup_iff.2 h.live_nodup
  exact fun hw => (List.nodup_cons.1 hnd).1 (List.mem_append_right _ hw)

theorem mem_live (h : p.Staffed (worker :: ws) ks) : worker ∈ p.controller.live :=
  h.places.mem_iff.1 List.mem_cons_self

/-- A worker that is at no place does not wait at the bell. -/
theorem not_mem_waiting (h : p.Staffed (worker :: ws) ks) : worker ∉ p.timed.bell.waiting := by
  refine fun hw => h.not_mem_places (List.mem_append_left _ (List.mem_filterMap.2
    ⟨.called worker, List.mem_append_left _ (List.mem_map_of_mem hw), rfl⟩))

/-- Nothing has happened while the controller waits for its caches. -/
theorem syncing (h : p.Staffed ws ks) {caches : List Nat}
    (hphase : p.controller.phase = .syncing caches) :
    p.controller.live = [] ∧ p.calls = [] ∧ p.queue.down = false := by
  have hfits := h.fits
  rwa [Fits, hphase] at hfits

/-- No sync is started before. -/
theorem started_eq_nil (h : p.Staffed [] ks) {caches : List Nat}
    (hphase : p.controller.phase = .syncing caches) : p.started = [] := by
  obtain ⟨hlive, hcalls, -⟩ := h.syncing hphase
  have hplaces : p.places = [] := List.Perm.eq_nil (hlive ▸ h.places)
  have hchores : p.chores = [] := List.map_eq_nil_iff.1 (List.append_eq_nil_iff.1 hplaces).2
  rw [started, inHand, hcalls, hchores]
  rfl

/-- The queue goes down when the controller stops. -/
theorem up_of_running (h : p.Staffed ws ks) (hphase : p.controller.phase = .running) :
    p.queue.down = false := by
  have hfits := h.fits
  rwa [Fits, hphase] at hfits

/-- Workers start and end only while the controller is running or stopping. -/
theorem phase_of_live (h : p.Staffed ws ks) (hlive : p.controller.live ≠ []) :
    p.controller.phase = .running ∨ p.controller.phase = .stopping := by
  have hfits := h.fits
  unfold Fits at hfits
  cases hphase : p.controller.phase <;> simp_all

/-- A worker ends, and what it had at hand is with nobody. -/
theorem retired (h : p.Staffed [worker] ks) (new : List WorkTask)
    (htasks : p'.timed.tasks.Perm (new ++ p.timed.tasks))
    (hnew : ∀ task ∈ new, task.workerOf = none)
    (hchores : p'.chores = p.chores) (hbell : p'.timed.bell.Sound) (hqueue : p'.queue = p.queue)
    (hlive : p'.controller.live = p.controller.live.erase worker)
    (hworkers : p'.controller.workers = p.controller.workers)
    (hphase : p'.controller.phase = p.controller.phase) : p'.Staffed [] ks := by
  obtain ⟨hplaces, hheld⟩ := places_held_perm htasks hnew hchores
  have hkeys := hheld.append_left ks
  refine ⟨hbell, hqueue ▸ h.queue, hkeys.nodup_iff.2 h.held_nodup, fun k hk => ?_, ?_, ?_, ?_⟩
  · rw [hqueue]
    exact h.processing k (hkeys.mem_iff.1 hk)
  · have hplaced := h.places.erase worker
    rw [List.singleton_append, List.erase_cons_head] at hplaced
    exact hlive ▸ hplaces.trans hplaced
  · rw [hlive, hworkers]
    exact List.erase_sublist.trans h.live
  · rw [hqueue]
    exact fits_of_live h.fits hphase (h.phase_of_live (List.ne_nil_of_mem h.mem_live))

/-- A worker dies, and the key that it had is with nobody. -/
theorem died (h : p.Staffed [worker] ks) {c : Controller} (htimed : c.timed = p.timed)
    (hlive : c.live = p.controller.live) (hworkers : c.workers = p.controller.workers)
    (hphase : c.phase = p.controller.phase) : (p.led (c.endWorker worker)).Staffed [] ks := by
  have hs : p.timed.Summons (p.led (c.endWorker worker)).timed [.own .lifecycle] :=
    htimed ▸ TimedQueue.summons_scheduled (t := c.timed) [.own .lifecycle]
      (c.timed.schedule.pending_spawn_perm (.own .lifecycle))
  have hqueue : c.timed.queue = p.queue := congrArg TimedQueue.queue htimed
  exact h.retired [.own .lifecycle] hs.tasks (by simp [QueueTask.workerOf]) rfl (hs.bell h.bell)
    hqueue (congrArg (·.erase worker) hlive) hworkers hphase

/-- A key is handed out, which is with nobody else since it waited. -/
theorem served (h : p.Staffed ws ks) {k : String} {timed : TimedQueue String ControllerTask}
    (htake : p.queue.take? = some (k, timed.queue))
    (htasks : timed.tasks.Perm p.timed.tasks) (hbell : timed.bell.Sound) :
    (p.fed timed).Staffed ws (k :: ks) := by
  obtain ⟨hw, -, hp, hdown⟩ := WorkQueue.take?_eq_some htake
  have htasks : (p.fed timed).timed.tasks.Perm ([] ++ p.timed.tasks) := htasks
  obtain ⟨hplaces, hheld⟩ := places_held_perm htasks (by simp) rfl
  have hkeys := hheld.append_left ks
  have hk : k ∉ ks ++ p.held := fun hk =>
    h.queue.idle k (hw ▸ List.mem_cons_self) (h.processing k hk)
  refine ⟨hbell, h.queue.take? htake,
    (hkeys.cons k).nodup_iff.2 (List.nodup_cons.2 ⟨hk, h.held_nodup⟩), fun j hj => ?_,
    (hplaces.append_left ws).trans h.places, h.live, hdown ▸ h.fits⟩
  change j ∈ timed.queue.processing
  rw [hp]
  rcases List.mem_cons.1 ((hkeys.cons k).mem_iff.1 hj) with rfl | hj
  · exact List.mem_cons_self
  · exact List.mem_cons_of_mem _ (h.processing j hj)

/-- A worker that looks for a key has one in hand, ends, or waits after that. -/
theorem looked (h : p.Staffed [worker] lost) : (p.looked worker).Staffed [] lost := by
  obtain ⟨timed, hbell, hcases⟩ := p.controller.look_cases h.bell h.not_mem_waiting
  unfold Workforce.looked
  rcases hcases with ⟨k, q, hlook, -, htake, rfl, htasks⟩ | ⟨hlook, -, hq, htasks⟩ |
    ⟨hlook, hq, htasks⟩
  · rw [hlook]
    exact (h.served htake htasks hbell).assigned (.handed k)
  · rw [hlook]
    exact h.retired [.own .lifecycle] htasks (by simp [QueueTask.workerOf]) rfl hbell hq rfl rfl rfl
  · rw [hlook]
    have hplaces : (p.fed timed).places.Perm (worker :: p.places) :=
      places_perm [.called worker] htasks rfl
    have hheld : (p.fed timed).held.Perm p.held := held_perm [.called worker] htasks rfl
    have hdown : timed.queue.down = p.queue.down := congrArg WorkQueue.down hq
    exact h.move hplaces (hheld.append_left lost) hbell (WorkQueue.Grows.of_eq hq) rfl rfl
      (hdown.symm ▸ h.fits)

/-- The handler is called with a key at hand. -/
theorem called {k : String} (h : p.Staffed [worker] (k :: lost)) :
    (p.led (p.controller.beginSync worker k)).Staffed [] lost := by
  have hs := p.controller.summons_beginSync worker k
  have hplaces : (p.led (p.controller.beginSync worker k)).places.Perm (worker :: p.places) :=
    places_perm [.own (.synced worker k)] hs.tasks rfl
  have hheld : (p.led (p.controller.beginSync worker k)).held.Perm ([k] ++ p.held) :=
    held_perm [.own (.synced worker k)] hs.tasks rfl
  refine h.move hplaces (taken_up_perm hheld).symm (hs.bell h.bell) (WorkQueue.Grows.refl _) rfl
    rfl ?_
  exact fits_of_live h.fits rfl (h.phase_of_live (List.ne_nil_of_mem h.mem_live))

/-- A sync has ended, and its outcome is in the log. -/
theorem noted (h : p.Staffed ws ks) (script : Script) (k what : String)
    (hwhat : what ≠ "start") :
    (p.led (Controller.note { p.controller with script } k what)).Staffed ws ks :=
  h.led rfl rfl rfl (by simpa [Fits, Controller.note, hwhat] using h.fits)

/-- A sync ends : its worker has a chore with the key from then on, or dies. -/
theorem ended {k : String} (h : p.Staffed [worker] (k :: lost)) :
    (p.ended worker k).Staffed [] lost := by
  unfold Workforce.ended
  rcases hnext : p.controller.script.next k with ⟨outcome, script⟩
  cases outcome with
  | ok => exact assigned (.succeeded k) (h.noted script k "ok" (by decide))
  | err => exact assigned (.failed k) (h.noted script k "err" (by decide))
  | panic =>
    exact (h.died (c := { p.controller with script, crashed := true }) rfl rfl rfl rfl).lose

/-- A worker dies of a count, and the key at hand is with nobody. -/
theorem overrun (h : p.Staffed [worker] ks) : (p.overrun worker).Staffed [] ks :=
  h.died (c := { p.controller with crashed := true }) rfl rfl rfl rfl

theorem woken (h : p.Staffed ws ks) : (p.led (p.controller.wake .lifecycle)).Staffed ws ks :=
  h.fed (TimedQueue.summons_scheduled _
    (p.timed.schedule.pending_spawnAll_perm [.own .lifecycle]))
    (by simp [QueueTask.workerOf]) (WorkQueue.Grows.refl _) rfl

theorem added (h : p.Staffed ws ks) (k : String) : (p.fed (p.timed.add k)).Staffed ws ks :=
  h.fed (TimedQueue.summons_add k) (by simp) (p.timed.grows_add k) (p.timed.down_add k)

theorem addedAfter (h : p.Staffed ws ks) (k : String) (delay : Nat) :
    (p.fed (p.timed.addAfter k delay)).Staffed ws ks := by
  refine h.fed (TimedQueue.summons_addAfter k delay) (fun task ht => ?_)
    (p.timed.grows_addAfter k delay) (p.timed.down_addAfter k delay)
  unfold TimedQueue.sleepers at ht
  split at ht
  · cases ht
  · rw [List.mem_singleton.1 ht]
    rfl

/-- Only how often keys were put off is changed. -/
theorem counted (h : p.Staffed ws ks) (k : String) : (p.counted k).Staffed ws ks :=
  h.fed (TimedQueue.summons_of_bell_eq [] rfl (List.Perm.refl _)) (by simp)
    (p.queue.grows_countFailure k) rfl

theorem forgotten (h : p.Staffed ws ks) (k : String) :
    (p.fed (p.timed.forget k)).Staffed ws ks :=
  h.fed (TimedQueue.summons_of_bell_eq [] rfl (List.Perm.refl _)) (by simp)
    (p.queue.grows_forget k) rfl

theorem turn (h : p.Staffed [] lost) {task : WorkTask} {rest : List WorkTask}
    (hready : p.timed.schedule.ready = task :: rest) :
    ((p.popped rest).turn task).Staffed [] lost := by
  have hpopped := h.popped hready
  cases task with
  | called worker => exact assigned .free hpopped
  | sleeper k delay =>
    exact hpopped.fed (TimedQueue.summons_scheduled [.due k]
      (Schedule.pending_sleep_perm _ _ _)) (by simp [QueueTask.workerOf])
      (WorkQueue.Grows.refl _) rfl
  | due k => exact hpopped.added k
  | own a =>
    cases a with
    | lifecycle => exact hpopped
    | synced worker k => exact hpopped.ended

theorem act (h : p.Staffed [] lost) {before after : List (Nat × Chore)} {worker : Nat}
    {chore : Chore} (hchore : p.chores = before ++ (worker, chore) :: after) (noise : Rat) :
    ((p.withChores (before ++ after)).act o worker noise chore).Staffed [] lost := by
  have hleft := h.unassigned hchore
  cases chore with
  | handed k => exact hleft.called
  | succeeded k => exact assigned (.told k) (hleft.forgotten k)
  | failed k =>
    by_cases hcounts : Counts o (p.withChores (before ++ after)) k
    · rw [act_of_counts hcounts]
      exact assigned (.counted k _) (hleft.counted k)
    · rw [act_of_not_counts hcounts]
      exact hleft.overrun.lose
  | counted k delay => exact assigned (.told k) (hleft.addedAfter k delay)
  | told k => exact assigned .free hleft.given
  | free => exact hleft.looked

theorem advance (h : p.Staffed [] lost) {c : Controller} (hc : Advance p.controller c) :
    (p.led c).Staffed [] lost := by
  have hclosed : p.timed.Summons p.timed.shutDown [] := TimedQueue.summons_shutDown
  cases hc with
  | passCache i rest hphase hraised => exact h.led rfl rfl rfl (h.syncing hphase)
  | loseCache i rest hphase hraised hheld =>
    exact h.onward hclosed (by simp) rfl p.queue.grows_shutDown rfl rfl (h.syncing hphase).1
  | quit i rest hphase hshutdown =>
    exact h.onward hclosed (by simp) rfl p.queue.grows_shutDown rfl rfl (h.syncing hphase).1
  | startWorkers hphase =>
    -- nobody is anywhere yet
    obtain ⟨hlive, -, hup⟩ := h.syncing hphase
    have hs : p.timed.Summons p.controller.staffed.timed _ := TimedQueue.summons_scheduled _
      (p.timed.schedule.pending_spawnAll_perm
        ((List.range (max p.controller.workers 1)).map .called))
    have hplaces : (p.led { p.controller.staffed with phase := .running }).places.Perm _ :=
      places_perm _ hs.tasks rfl
    have hheld : (p.led { p.controller.staffed with phase := .running }).held.Perm _ :=
      held_perm _ hs.tasks rfl
    have hnobody : p.places = [] := List.Perm.eq_nil (hlive ▸ h.places)
    have hcomers : ((List.range (max p.controller.workers 1)).map QueueTask.called).filterMap
        QueueTask.workerOf = List.range (max p.controller.workers 1) := by
      simp [List.filterMap_map, Function.comp_def, QueueTask.workerOf]
    have hsyncs : ((List.range (max p.controller.workers 1)).map QueueTask.called).filterMap
        QueueTask.syncOf = [] := by
      simp [List.filterMap_map, Function.comp_def, QueueTask.syncOf]
    rw [hcomers, hnobody, List.append_nil] at hplaces
    rw [hsyncs] at hheld
    have hkeys := hheld.append_left lost
    exact ⟨h.bell, h.queue, hkeys.nodup_iff.2 h.held_nodup,
      fun k hk => h.processing k (hkeys.mem_iff.1 hk), hplaces, List.Sublist.refl _, hup⟩
  | close hphase hshutdown =>
    exact h.onward hclosed (by simp) rfl p.queue.grows_shutDown rfl rfl trivial
  | finish hphase hlive => exact h.led rfl rfl rfl hlive

theorem step (h : p.Staffed [] lost) (hs : Step o p p') : p'.Staffed [] lost := by
  cases hs with
  | add k => exact h.added k
  | addAfter k delay => exact h.addedAfter k delay
  | countFailure k hcounts => exact h.counted k
  | forget k => exact h.forgotten k
  | changeCache i change =>
    have hchanged : (p.led { p.controller with
        caches := p.controller.caches.modify i change.apply }).Staffed [] lost :=
      h.led rfl rfl rfl h.fits
    unfold Controller.changeCache
    dsimp only
    split
    · exact hchanged.woken
    · exact hchanged
  | changeShutdown change =>
    have hchanged : (p.led { p.controller with
        shutdown := change.apply p.controller.shutdown }).Staffed [] lost :=
      h.led rfl rfl rfl h.fits
    exact hchanged.woken
  | pass schedule hpending =>
    exact h.fed (TimedQueue.summons_scheduled [] hpending) (by simp)
      (WorkQueue.Grows.refl _) rfl
  | turn task rest hready => exact h.turn hready
  | act before worker chore after noise hchore => exact h.act hchore noise
  | advance c hc => exact h.advance hc

theorem run (h : p.Staffed [] lost) (hr : Run o p p') : p'.Staffed [] lost := by
  induction hr with
  | refl => exact h
  | tail _ hs ih => exact ih.step hs

end Staffed

end Workforce

end GameFleet
