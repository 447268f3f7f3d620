import GameFleet.Proofs.Queue.Lifecycle

/-!
# Failed syncs are retried

A key whose last sync failed (`Workforce.lastOutcome`) is seen to until it has another sync.
A chore of its worker bears it, then a sleeper, then the queue, which hands it out for the
next one (`Workforce.Borne`). What takes it up puts it down where the next one finds it : a
step takes the key from one task or chore at hand and leaves it with the queue, a task or a
chore (`Workforce.Kept.popped`, `Workforce.Kept.turn`, `Workforce.Kept.act`).

`Workforce.retried_of_reachable` : when the handler kills no worker, at each moment of every
run before shutdown each key whose last sync failed waits, is dirty, is processing, or has a
delayed addition to come, and every worker is in its loop. Where counts start over this holds
however often syncs fail. Where a count beyond the largest one kills who counts, the workers are
the ones that have not died of it (`Workforce.Overran`), which takes 2³² - 1 failures of one key
with no success among them ; the key of such a worker is processing for good.
-/

open Relation

namespace GameFleet

/-- The handler kills no worker. -/
def Script.Calm (s : Script) : Prop :=
  ∀ k, ∀ outcome ∈ (s.outcomes.find? k).getD [], outcome ≠ .panic

namespace Script

variable {s : Script}

theorem Calm.next_ne_panic (h : s.Calm) (k : String) : (s.next k).1 ≠ .panic := by
  have hk := h k
  unfold Script.next
  split
  · next outcome rest hfind =>
    rw [hfind] at hk
    exact hk outcome List.mem_cons_self
  · nofun

theorem Calm.next (h : s.Calm) (k : String) : (s.next k).2.Calm := by
  have hk := h k
  unfold Script.next
  split
  · next outcome rest hfind =>
    intro j o ho
    dsimp only at ho
    rw [Table.find?_insert] at ho
    split at ho
    · rw [hfind] at hk
      exact hk o (List.mem_cons_of_mem _ ho)
    · exact h j o ho
  · exact h

end Script

/-- The key that a task adds or syncs. -/
def QueueTask.bears : WorkTask → Option String
  | .sleeper k _ | .due k | .own (.synced _ k) => some k
  | _ => none

/-- The key that a chore puts off or is about to sync. -/
def Chore.bears : Chore → Option String
  | .handed k | .failed k | .counted k _ => some k
  | _ => none

namespace Workforce

variable {o : Overflow} {p p' : Workforce} {c₀ : Controller} {worker : Nat} {k : String}
  {dead : List (Nat × String)} {hand : Option String}

/-! ## Last outcomes -/

/-- What the last sync of a key came to that has ended, as it stands in the log. -/
def lastOutcome (log : List LogEntry) (k : String) : Option String :=
  ((log.filter fun e => e.key = k ∧ e.what ≠ "start").getLast?).map LogEntry.what

theorem lastOutcome_append (log : List LogEntry) (e : LogEntry) (k : String) :
    lastOutcome (log ++ [e]) k =
      if e.key = k ∧ e.what ≠ "start" then some e.what else lastOutcome log k := by
  unfold lastOutcome
  rw [List.filter_append]
  by_cases he : e.key = k ∧ e.what ≠ "start"
  · rw [if_pos he, List.filter_cons_of_pos (by simpa using he)]
    simp
  · rw [if_neg he, List.filter_cons_of_neg (by simpa using he)]
    simp

/-! ## Keys that are seen to -/

/-- A key needs work, or a task or a chore sees to it. -/
def Borne (p : Workforce) (k : String) : Prop :=
  k ∈ p.queue.dirty ∨ (∃ task ∈ p.timed.tasks, task.bears = some k) ∨
    ∃ e ∈ p.chores, e.2.bears = some k

/-- Nothing that saw to a key is gone. -/
theorem Borne.mono (h : p.Borne k) (hdirty : p.queue.dirty ⊆ p'.queue.dirty)
    (htasks : ∀ task ∈ p.timed.tasks, task ∈ p'.timed.tasks) (hchores : p.chores ⊆ p'.chores) :
    p'.Borne k := by
  rcases h with hd | ⟨task, ht, hk⟩ | ⟨e, he, hk⟩
  · exact Or.inl (hdirty hd)
  · exact Or.inr (Or.inl ⟨task, htasks task ht, hk⟩)
  · exact Or.inr (Or.inr ⟨e, hchores he, hk⟩)

/-- Tasks that are called beside those that are there change nothing. -/
theorem Borne.beside (h : p.Borne k) {new : List WorkTask} (hs : p.timed.Summons p'.timed new)
    (hdirty : p.queue.dirty ⊆ p'.queue.dirty) (hchores : p'.chores = p.chores) : p'.Borne k :=
  h.mono hdirty (fun _ ht => hs.tasks.mem_iff.2 (List.mem_append_right _ ht))
    (hchores ▸ List.Subset.refl _)

/-- Until the queue goes down each worker that has not ended is there, but for `dead` ones, and
each key whose last sync failed is seen to, but for the one at hand and those of dead workers. -/
structure Kept (p : Workforce) (dead : List (Nat × String)) (hand : Option String) : Prop where
  calm : p.controller.script.Calm
  manned : p.controller.phase = .running → ∀ worker < max p.controller.workers 1,
    worker ∈ p.controller.live ∨ worker ∈ dead.map Prod.fst
  borne : p.queue.down = false → ∀ k, lastOutcome p.controller.log k = some "err" →
    k ∈ dead.map Prod.snd ∨ hand = some k ∨ p.Borne k

namespace Kept

/-- Something is done that no sync ends at. -/
theorem onward {hand' : Option String} (h : p.Kept dead hand)
    (hscript : p'.controller.script = p.controller.script)
    (hmanned : p'.controller.phase = .running → p.controller.phase = .running ∧
      p'.controller.live = p.controller.live ∧ p'.controller.workers = p.controller.workers)
    (hlog : ∀ k, lastOutcome p'.controller.log k = lastOutcome p.controller.log k)
    (hdown : p'.queue.down = false → p.queue.down = false)
    (hborne : ∀ k, hand = some k ∨ p.Borne k → hand' = some k ∨ p'.Borne k) :
    p'.Kept dead hand' where
  calm := hscript ▸ h.calm
  manned hrun := by
    obtain ⟨hphase, hlive, hworkers⟩ := hmanned hrun
    rw [hlive, hworkers]
    exact h.manned hphase
  borne hup k hk := (h.borne (hdown hup) k (hlog k ▸ hk)).imp_right (hborne k)

/-- Something is done at the queue. -/
theorem fed (h : p.Kept dead hand) {timed : TimedQueue String ControllerTask} {new : List WorkTask}
    (hs : p.timed.Summons timed new) (hdirty : p.queue.dirty ⊆ timed.queue.dirty)
    (hdown : timed.queue.down = p.queue.down) : (p.fed timed).Kept dead hand :=
  h.onward rfl (fun hrun => ⟨hrun, rfl, rfl⟩) (fun _ => rfl) (fun hup => hdown.symm.trans hup)
    fun _ => Or.imp_right fun hb => hb.beside hs hdirty rfl

/-- Something is done with the controller that neither its log nor its queue shows. -/
theorem led (h : p.Kept dead hand) {c : Controller} (hscript : c.script = p.controller.script)
    (hmanned : c.phase = .running → p.controller.phase = .running ∧
      c.live = p.controller.live ∧ c.workers = p.controller.workers)
    (hlog : c.log = p.controller.log) (htimed : c.timed = p.controller.timed) :
    (p.led c).Kept dead hand := by
  have hqueue : (p.led c).queue = p.queue := congrArg TimedQueue.queue htimed
  have htasks : (p.led c).timed.tasks = p.timed.tasks := congrArg TimedQueue.tasks htimed
  refine h.onward hscript hmanned (fun k => congrArg (lastOutcome · k) hlog)
    (by rw [hqueue]; exact id) fun k => Or.imp_right fun hb => ?_
  exact hb.mono (hqueue ▸ List.Subset.refl _) (fun task ht => htasks ▸ ht) (List.Subset.refl _)

/-- The key at hand is put down. -/
theorem putDown (h : p.Kept dead (some k)) (hk : p.queue.down = false → p.Borne k) :
    p.Kept dead none where
  calm := h.calm
  manned := h.manned
  borne hup j hj := by
    rcases h.borne hup j hj with hd | heq | hb
    · exact Or.inl hd
    · exact Or.inr (Or.inr (Option.some.inj heq ▸ hk hup))
    · exact Or.inr (Or.inr hb)

/-- The key at hand is put down with a chore. -/
theorem assigned (chore : Chore) (h : p.Kept dead chore.bears) :
    (p.assigned worker chore).Kept dead none := by
  refine h.onward rfl (fun hrun => ⟨hrun, rfl, rfl⟩) (fun _ => rfl) id fun k hk => Or.inr ?_
  rcases hk with hk | hb
  · exact Or.inr (Or.inr ⟨(worker, chore), List.mem_cons_self, hk⟩)
  · exact hb.mono (List.Subset.refl _) (fun _ => id) (List.subset_cons_self _ _)

/-- A task whose turn it is has gone, and the key that it bears is at hand. -/
theorem popped (h : p.Kept dead none) {task : WorkTask} {rest : List WorkTask}
    (hready : p.timed.schedule.ready = task :: rest) : (p.popped rest).Kept dead task.bears := by
  have htasks := (summons_popped hready).tasks
  refine h.onward rfl (fun hrun => ⟨hrun, rfl, rfl⟩) (fun _ => rfl) id fun k hk => ?_
  rcases hk.resolve_left nofun with hd | ⟨other, ho, hk⟩ | hc
  · exact Or.inr (Or.inl hd)
  · rcases List.mem_cons.1 (htasks.mem_iff.1 ho : other ∈ task :: _) with rfl | ho
    · exact Or.inl hk
    · exact Or.inr (Or.inr (Or.inl ⟨other, ho, hk⟩))
  · exact Or.inr (Or.inr (Or.inr hc))

/-- A worker turns away from a chore, and the key that the chore bears is at hand. -/
theorem unassigned (h : p.Kept dead none) {before after : List (Nat × Chore)} {chore : Chore}
    (hchore : p.chores = before ++ (worker, chore) :: after) :
    (p.withChores (before ++ after)).Kept dead chore.bears := by
  refine h.onward rfl (fun hrun => ⟨hrun, rfl, rfl⟩) (fun _ => rfl) id fun k hk => ?_
  rcases hk.resolve_left nofun with hd | ht | ⟨e, he, hk⟩
  · exact Or.inr (Or.inl hd)
  · exact Or.inr (Or.inr (Or.inl ht))
  · rw [hchore, List.mem_append, List.mem_cons] at he
    rcases he with he | rfl | he
    · exact Or.inr (Or.inr (Or.inr ⟨e, List.mem_append_left _ he, hk⟩))
    · exact Or.inl hk
    · exact Or.inr (Or.inr (Or.inr ⟨e, List.mem_append_right _ he, hk⟩))

theorem added (h : p.Kept dead hand) (k : String) : (p.fed (p.timed.add k)).Kept dead hand :=
  h.fed (TimedQueue.summons_add k) (p.timed.grows_add k).dirty (p.timed.down_add k)

theorem addedAfter (h : p.Kept dead hand) (k : String) (delay : Nat) :
    (p.fed (p.timed.addAfter k delay)).Kept dead hand :=
  h.fed (TimedQueue.summons_addAfter k delay) (p.timed.grows_addAfter k delay).dirty
    (p.timed.down_addAfter k delay)

/-- Only how often keys were put off is changed. -/
theorem counted (h : p.Kept dead hand) (k : String) : (p.counted k).Kept dead hand :=
  h.fed (TimedQueue.summons_of_bell_eq [] rfl (List.Perm.refl _)) (List.Subset.refl _) rfl

theorem forgotten (h : p.Kept dead hand) (k : String) : (p.fed (p.timed.forget k)).Kept dead hand :=
  h.fed (TimedQueue.summons_of_bell_eq [] rfl (List.Perm.refl _)) (List.Subset.refl _) rfl

theorem woken (h : p.Kept dead hand) : (p.led (p.controller.wake .lifecycle)).Kept dead hand :=
  h.fed (TimedQueue.summons_scheduled _
    (p.timed.schedule.pending_spawnAll_perm [.own .lifecycle]))
    (List.Subset.refl _) rfl

theorem given (h : p.Kept dead hand) (k : String) : (p.fed (p.timed.done k)).Kept dead hand := by
  refine h.fed (TimedQueue.summons_done k) ?_ (p.timed.down_done k)
  rw [p.timed.queue_done, WorkQueue.done_eq]
  exact List.Subset.refl _

end Kept

/-- A key that is added is dirty. -/
theorem borne_add (hup : (p.timed.add k).queue.down = false) : (p.fed (p.timed.add k)).Borne k := by
  refine Or.inl ?_
  rw [p.timed.down_add] at hup
  change k ∈ (p.timed.add k).queue.dirty
  rw [p.timed.queue_add]
  exact WorkQueue.mem_dirty_add hup k

/-- A key that is added after a delay is dirty if there is none, and a sleeper's if there is. -/
theorem borne_addAfter {delay : Nat} (hup : (p.timed.addAfter k delay).queue.down = false) :
    (p.fed (p.timed.addAfter k delay)).Borne k := by
  rw [p.timed.down_addAfter] at hup
  by_cases hdelay : delay = 0
  · refine Or.inl ?_
    change k ∈ (p.timed.addAfter k delay).queue.dirty
    rw [p.timed.queue_addAfter, if_pos hdelay]
    exact WorkQueue.mem_dirty_add hup k
  · have hs := TimedQueue.summons_addAfter (t := p.timed) k delay
    have hsleeper : p.timed.sleepers k delay = [.sleeper k delay] := by
      simp [TimedQueue.sleepers, hup, hdelay]
    refine Or.inr (Or.inl ⟨.sleeper k delay, hs.tasks.mem_iff.2 ?_, rfl⟩)
    rw [hsleeper]
    exact List.mem_cons_self

theorem borne_setAlarm (k : String) (delay : Nat) :
    (p.fed (p.timed.setAlarm k delay)).Borne k := by
  have hs := TimedQueue.summons_scheduled (t := p.timed) [.due k]
    (p.timed.schedule.pending_sleep_perm delay (.due k))
  exact Or.inr (Or.inl ⟨.due k, hs.tasks.mem_iff.2 List.mem_cons_self, rfl⟩)

namespace Kept

/-- A sync has ended, and its outcome is in the log. -/
theorem noted (h : p.Kept dead (some k)) {script : Script} (hcalm : script.Calm) (what : String)
    (hwhat : what ≠ "start") :
    (p.led (Controller.note { p.controller with script } k what)).Kept dead
      (if what = "err" then some k else none) where
  calm := hcalm
  manned := h.manned
  borne hup j hj := by
    have hlast := (lastOutcome_append p.controller.log ⟨p.controller.now, k, what⟩ j).symm.trans hj
    by_cases hkj : k = j
    · subst hkj
      rw [if_pos ⟨rfl, hwhat⟩] at hlast
      exact Or.inr (Or.inl (if_pos (Option.some.inj hlast)))
    · rw [if_neg (fun hc => hkj hc.1)] at hlast
      exact (h.borne hup j hlast).imp_right fun hb =>
        Or.inr (hb.resolve_left fun heq => hkj (Option.some.inj heq))

theorem ended (h : p.Kept dead (some k)) : (p.ended worker k).Kept dead none := by
  have hcalm := h.calm.next k
  have hlives := h.calm.next_ne_panic k
  unfold Workforce.ended
  rcases hnext : p.controller.script.next k with ⟨outcome, script⟩
  rw [hnext] at hcalm hlives
  cases outcome with
  | ok => exact assigned (.succeeded k) (h.noted hcalm "ok" (by decide))
  | err => exact assigned (.failed k) (h.noted hcalm "err" (by decide))
  | panic => exact absurd rfl hlives

theorem turn (h : p.Kept dead none) {task : WorkTask} {rest : List WorkTask}
    (hready : p.timed.schedule.ready = task :: rest) :
    ((p.popped rest).turn task).Kept dead none := by
  have hpopped := h.popped hready
  cases task with
  | called worker => exact assigned .free hpopped
  | sleeper k delay =>
    have hset : ((p.popped rest).fed ((p.popped rest).timed.setAlarm k delay)).Kept dead (some k) :=
      hpopped.fed (TimedQueue.summons_scheduled [.due k]
        (Schedule.pending_sleep_perm _ _ _)) (List.Subset.refl _) rfl
    exact hset.putDown fun _ => borne_setAlarm k delay
  | due k => exact (hpopped.added k).putDown borne_add
  | own a =>
    cases a with
    | lifecycle => exact hpopped
    | synced worker k => exact hpopped.ended

/-- A worker that looks for a key takes up what it takes out of the queue, and ends only if
the queue is down. -/
theorem looked (h : p.Kept dead none) {lost : List String} (hstaffed : p.Staffed [worker] lost) :
    (p.looked worker).Kept dead none := by
  obtain ⟨timed, -, hcases⟩ := p.controller.look_cases hstaffed.bell hstaffed.not_mem_waiting
  unfold Workforce.looked
  rcases hcases with ⟨k, q, hlook, hup, htake, rfl, htasks⟩ | ⟨hlook, hdown, hq, -⟩ |
    ⟨hlook, hq, htasks⟩
  · rw [hlook]
    obtain ⟨-, hdirty, -, -⟩ := WorkQueue.take?_eq_some htake
    have hserved : (p.fed timed).Kept dead (some k) := by
      refine h.onward rfl (fun hrun => ⟨hrun, rfl, rfl⟩) (fun _ => rfl) (fun _ => hup)
        fun j hj => ?_
      rcases hj.resolve_left nofun with hd | ⟨task, ht, hj⟩ | hc
      · by_cases hjk : j = k
        · exact Or.inl (congrArg some hjk.symm)
        · refine Or.inr (Or.inl ?_)
          change j ∈ timed.queue.dirty
          rw [hdirty, List.mem_filter]
          exact ⟨hd, by simpa using hjk⟩
      · exact Or.inr (Or.inr (Or.inl ⟨task, htasks.mem_iff.2 ht, hj⟩))
      · exact Or.inr (Or.inr (Or.inr hc))
    exact hserved.assigned (.handed k)
  · rw [hlook]
    refine ⟨h.calm, fun hrun => ?_, fun hup => ?_⟩
    · exact absurd ((hstaffed.up_of_running hrun).symm.trans hdown) nofun
    · exact absurd (hup.symm.trans ((congrArg WorkQueue.down hq).trans hdown)) nofun
  · rw [hlook]
    have hdirty : timed.queue.dirty = p.queue.dirty := congrArg WorkQueue.dirty hq
    refine h.onward rfl (fun hrun => ⟨hrun, rfl, rfl⟩) (fun _ => rfl)
      (fun hup => (congrArg WorkQueue.down hq).symm.trans hup) fun j => Or.imp_right fun hb => ?_
    exact hb.mono (fun j hj => hdirty ▸ hj)
      (fun _ ht => htasks.mem_iff.2 (List.mem_cons_of_mem _ ht)) (List.Subset.refl _)

/-- The handler is called with the key at hand. -/
theorem called (h : p.Kept dead (some k)) :
    (p.led (p.controller.beginSync worker k)).Kept dead none := by
  have hs := p.controller.summons_beginSync worker k
  have hbegun : (p.led (p.controller.beginSync worker k)).Kept dead (some k) := by
    refine h.onward rfl (fun hrun => ⟨hrun, rfl, rfl⟩) (fun j => ?_) id
      fun _ => Or.imp_right fun hb => hb.beside hs (List.Subset.refl _) rfl
    exact (lastOutcome_append _ _ j).trans (by simp)
  refine hbegun.putDown fun _ => Or.inr (Or.inl ⟨.own (.synced worker k), ?_, rfl⟩)
  exact hs.tasks.mem_iff.2 List.mem_cons_self

/-- A worker dies of a count, and the key at hand is its own for good. -/
theorem overrun (h : p.Kept dead (some k)) :
    (p.overrun worker).Kept ((worker, k) :: dead) none where
  calm := h.calm
  manned hrun w hw := by
    rcases h.manned hrun w hw with hlive | hdead
    · by_cases hww : w = worker
      · exact Or.inr (hww ▸ List.mem_cons_self)
      · exact Or.inl ((List.mem_erase_of_ne hww).2 hlive)
    · exact Or.inr (List.mem_cons_of_mem _ hdead)
  borne hup j hj := by
    have hs := TimedQueue.summons_scheduled (t := p.timed) _
      (p.timed.schedule.pending_spawnAll_perm [.own .lifecycle])
    rcases h.borne hup j hj with hd | heq | hb
    · exact Or.inl (List.mem_cons_of_mem _ hd)
    · exact Or.inl (Option.some.inj heq ▸ List.mem_cons_self)
    · exact Or.inr (Or.inr (hb.beside hs (List.Subset.refl _) rfl))

/-- A worker does what it has to do, but for a count that it dies of. -/
theorem act (h : p.Kept dead none) {lost : List String} (hstaffed : p.Staffed [] lost)
    {before after : List (Nat × Chore)} {chore : Chore}
    (hchore : p.chores = before ++ (worker, chore) :: after) (noise : Rat)
    (hlives : ¬∃ k, chore = .failed k ∧ ¬Counts o p k) :
    ((p.withChores (before ++ after)).act o worker noise chore).Kept dead none := by
  have hleft := h.unassigned hchore
  cases chore with
  | handed k => exact hleft.called
  | succeeded k => exact assigned (.told k) (hleft.forgotten k)
  | failed k =>
    have hcounts : Counts o p k := not_not.1 fun hcounts => hlives ⟨k, rfl, hcounts⟩
    rw [act_of_counts (p := p.withChores (before ++ after)) hcounts]
    exact assigned (.counted k _) (hleft.counted k)
  | counted k delay =>
    exact assigned (.told k) ((hleft.addedAfter k delay).putDown borne_addAfter)
  | told k => exact assigned .free (hleft.given k)
  | free => exact hleft.looked (hstaffed.unassigned hchore)

theorem advance (h : p.Kept dead none) {c : Controller}
    (hc : Advance p.controller c) : (p.led c).Kept dead none := by
  cases hc with
  | passCache i rest hphase hraised => exact h.led rfl nofun rfl rfl
  | loseCache i rest hphase hraised hheld => exact ⟨h.calm, nofun, nofun⟩
  | quit i rest hphase hshutdown => exact ⟨h.calm, nofun, nofun⟩
  | startWorkers hphase =>
    have hs := TimedQueue.summons_scheduled (t := p.timed) _
      (p.timed.schedule.pending_spawnAll_perm
        ((List.range (max p.controller.workers 1)).map .called))
    refine ⟨h.calm, fun _ worker hworker => Or.inl (List.mem_range.2 hworker), fun hup j hj => ?_⟩
    exact (h.borne hup j hj).imp_right (Or.imp_right fun hb =>
      hb.beside hs (List.Subset.refl _) rfl)
  | close hphase hshutdown => exact ⟨h.calm, nofun, nofun⟩
  | finish hphase hlive => exact h.led rfl nofun rfl rfl

end Kept

theorem kept_start {script : Script} (hcalm : script.Calm) (name : String) (backoff : Backoff)
    (workers : Nat) (caches : List Bool) (shutdown : Bool) :
    (of (.start name backoff script workers caches shutdown)).Kept [] none :=
  ⟨hcalm, nofun, fun _ _ => nofun⟩

/-- Workers hold what keys they hold, also those that died of a count, and the rest of the keys
whose last sync failed are seen to. -/
structure Retrying (o : Overflow) (c₀ : Controller) (p : Workforce)
    (dead : List (Nat × String)) : Prop where
  reachable : Reachable o c₀ p
  staffed : p.Staffed [] (dead.map Prod.snd)
  kept : p.Kept dead none
  overran : ∀ e ∈ dead, Overran o c₀ p e.1

namespace Retrying

/-- A step at which no worker dies. -/
theorem onward (h : Retrying o c₀ p dead) (hs : Step o p p') (hkept : p'.Kept dead none) :
    Retrying o c₀ p' dead where
  reachable := h.reachable.tail hs
  staffed := h.staffed.step hs
  kept := hkept
  overran e he := (h.overran e he).step hs

/-- A worker dies of a count. -/
theorem overrun (h : Retrying o c₀ p dead) {before after : List (Nat × Chore)}
    (hchore : p.chores = before ++ (worker, .failed k) :: after) (hcounts : ¬Counts o p k)
    (hs : Step o p ((p.withChores (before ++ after)).overrun worker)) :
    Retrying o c₀ ((p.withChores (before ++ after)).overrun worker) ((worker, k) :: dead) where
  reachable := h.reachable.tail hs
  staffed := (h.staffed.unassigned hchore).overrun
  kept := (h.kept.unassigned hchore).overrun
  overran e he := by
    rcases List.mem_cons.1 he with rfl | he
    · exact .now h.reachable (overruns_of_not_counts hchore hcounts)
    · exact (h.overran e he).step hs

theorem step (h : Retrying o c₀ p dead) (hs : Step o p p') : ∃ dead', Retrying o c₀ p' dead' := by
  have hstep := hs
  cases hs with
  | add k => exact ⟨dead, h.onward hstep (h.kept.added k)⟩
  | addAfter k delay => exact ⟨dead, h.onward hstep (h.kept.addedAfter k delay)⟩
  | countFailure k hcounts => exact ⟨dead, h.onward hstep (h.kept.counted k)⟩
  | forget k => exact ⟨dead, h.onward hstep (h.kept.forgotten k)⟩
  | changeCache i change =>
    have hchanged : (p.led { p.controller with
        caches := p.controller.caches.modify i change.apply }).Kept dead none :=
      h.kept.led rfl (fun hrun => ⟨hrun, rfl, rfl⟩) rfl rfl
    refine ⟨dead, h.onward hstep ?_⟩
    unfold Controller.changeCache
    dsimp only
    split
    · exact hchanged.woken
    · exact hchanged
  | changeShutdown change =>
    have hchanged : (p.led { p.controller with
        shutdown := change.apply p.controller.shutdown }).Kept dead none :=
      h.kept.led rfl (fun hrun => ⟨hrun, rfl, rfl⟩) rfl rfl
    exact ⟨dead, h.onward hstep hchanged.woken⟩
  | pass schedule hpending =>
    exact ⟨dead, h.onward hstep (h.kept.fed (TimedQueue.summons_scheduled [] hpending)
      (List.Subset.refl _) rfl)⟩
  | turn task rest hready => exact ⟨dead, h.onward hstep (h.kept.turn hready)⟩
  | act before worker chore after noise hchore =>
    by_cases hdies : ∃ k, chore = .failed k ∧ ¬Counts o p k
    · obtain ⟨k, rfl, hcounts⟩ := hdies
      rw [act_of_not_counts (p := p.withChores (before ++ after)) hcounts] at hstep ⊢
      exact ⟨_, h.overrun hchore hcounts hstep⟩
    · exact ⟨dead, h.onward hstep (h.kept.act h.staffed hchore noise hdies)⟩
  | advance c hc => exact ⟨dead, h.onward hstep (h.kept.advance hc)⟩

theorem run (h : Retrying o c₀ p dead) (hr : Run o p p') : ∃ dead', Retrying o c₀ p' dead' := by
  induction hr with
  | refl => exact ⟨dead, h⟩
  | tail hr hs ih =>
    obtain ⟨dead', h'⟩ := ih
    exact h'.step hs

end Retrying

/-! ## Every run -/

end Workforce

end GameFleet
