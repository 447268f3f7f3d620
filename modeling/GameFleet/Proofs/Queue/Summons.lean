import GameFleet.Proofs.Queue.Bells
import GameFleet.Proofs.Queue.Sound

/-!
# Summons

A task of a system around a queue waits at the bell, or is to run : it is ready, or an alarm
is set for it (`Schedule.pending`). A task that an operation at the queue calls leaves the
bell and is to run from then on, so the tasks stay the same but for those that the operation
starts (`TimedQueue.Summons`). A task that attempts to get a key comes to wait, or is at no
place after that (`TimedQueue.attempt_summons`).
-/

namespace GameFleet

/-! ## Tasks that are to run -/

namespace Schedule

variable {τ : Type} (s : Schedule τ)

/-- The tasks that are ready and those of the alarms. -/
def pending : List τ := s.ready ++ s.alarms.map Prod.snd

theorem pending_spawnAll_perm (tasks : List τ) :
    (s.spawnAll tasks).pending.Perm (tasks ++ s.pending) := by
  unfold pending spawnAll
  rw [List.append_assoc, ← List.append_assoc tasks]
  exact (List.perm_append_comm_assoc _ _ _).trans (by rw [List.append_assoc])

theorem pending_spawn_perm (task : τ) : (s.spawn task).pending.Perm (task :: s.pending) :=
  s.pending_spawnAll_perm [task]

theorem pending_sleep_perm (delay : Nat) (task : τ) :
    (s.sleep delay task).pending.Perm (task :: s.pending) := by
  unfold pending sleep
  have hsplit := List.takeWhile_append_dropWhile (p := fun a => decide (a.1 ≤ s.now + delay))
    (l := s.alarms)
  conv_rhs => rw [← hsplit]
  simp only [List.map_append, List.map_cons, ← List.append_assoc]
  exact List.perm_middle

end Schedule

variable {κ α : Type} [Ordered κ]

/-! ## Attempts and the bell -/

namespace SharedQueue

variable {s : SharedQueue κ} {task : Nat}

theorem called_ringIf (reason : Bool) :
    (s.ringIf reason).1 ++ (s.ringIf reason).2.bell.waiting = s.bell.waiting := by
  unfold ringIf
  split
  · exact s.bell.toList_ring
  · rfl

theorem sound_ringIf (hbell : s.bell.Sound) (reason : Bool) :
    (s.ringIf reason).2.bell.Sound := by
  unfold ringIf
  split
  · exact hbell.ring
  · exact hbell

/-- A task that comes to the bell and leaves again leaves all others where they are. -/
theorem waiting_leave_arrive (ht : task ∉ s.bell.present) :
    ((s.bell.arrive task).2.leave task).1 = none ∧
      ((s.bell.arrive task).2.leave task).2.waiting = s.bell.waiting := by
  have hw : task ∉ s.bell.waiting := fun hw => ht (List.mem_append_left _ hw)
  have hc : task ∉ s.bell.called := fun hc => ht (List.mem_append_right _ hc)
  unfold Bell.arrive
  split
  · simp [Bell.leave, hc, List.erase_of_not_mem hw]
  · simp [Bell.leave, hc, List.erase_append_right, hw]

/-- A task that finds nothing waits behind all others, and one that finds a key may have the
next one called. -/
theorem called_attempt (ht : task ∉ s.bell.present) :
    (s.attempt task).2.1 ++ (s.attempt task).2.2.bell.waiting =
      s.bell.waiting ++ if (s.attempt task).1 = .blocked then [task] else [] := by
  obtain ⟨hnone, hwaiting⟩ := waiting_leave_arrive ht
  unfold attempt
  dsimp only
  split
  · simp [hnone, hwaiting]
  · split
    · next k queue htake =>
      have hcalled := called_ringIf (s := ⟨queue, ((s.bell.arrive task).2.leave task).2⟩)
        (!queue.waiting.isEmpty)
      simpa [hwaiting] using hcalled
    · unfold Bell.arrive
      split <;> simp

theorem sound_attempt (hbell : s.bell.Sound) (ht : task ∉ s.bell.present) :
    (s.attempt task).2.2.bell.Sound := by
  have harrive := hbell.arrive ht
  unfold attempt
  dsimp only
  split
  · exact harrive.leave task
  · split
    · exact sound_ringIf (harrive.leave task) _
    · split
      · next hspared =>
        refine harrive.arrive ?_
        rwa [Bell.arrive_of_spared hspared]
      · exact harrive

end SharedQueue

/-! ## Operations in virtual time -/

namespace TimedQueue

def bell (t : TimedQueue κ α) : Bell := t.shared.bell

/-- The tasks that are to run. -/
def pending (t : TimedQueue κ α) : List (QueueTask κ α) := t.schedule.pending

/-- All tasks. One that waits at the bell is to get a key, like one that was called. -/
def tasks (t : TimedQueue κ α) : List (QueueTask κ α) := t.bell.waiting.map .called ++ t.pending

/-- An operation keeps the bell sound, and lets the tasks `new` run. -/
structure Summons (t t' : TimedQueue κ α) (new : List (QueueTask κ α)) : Prop where
  bell : t.bell.Sound → t'.bell.Sound
  tasks : t'.tasks.Perm (new ++ t.tasks)

variable {t : TimedQueue κ α}

/-- The tasks that an operation calls are to run when they have left the bell. -/
theorem tasks_perm_of_called {t' : TimedQueue κ α} {called : List Nat} (comers : List Nat)
    (hcalled : called ++ t'.bell.waiting = t.bell.waiting ++ comers)
    (hpending : t'.pending.Perm (called.map .called ++ t.pending)) :
    t'.tasks.Perm (comers.map .called ++ t.tasks) := by
  have hmoved : t'.tasks.Perm ((called ++ t'.bell.waiting).map .called ++ t.pending) := by
    rw [List.map_append, List.append_assoc]
    exact (hpending.append_left _).trans (List.perm_append_comm_assoc _ _ _)
  rw [hcalled, List.map_append, List.append_assoc] at hmoved
  exact hmoved.trans (List.perm_append_comm_assoc _ _ _)

theorem pending_after_perm (r : List Nat × SharedQueue κ) :
    (t.after r).pending.Perm (r.1.map .called ++ t.pending) :=
  t.schedule.pending_spawnAll_perm _

/-- An operation that leaves the bell as it is. -/
theorem summons_of_bell_eq {t' : TimedQueue κ α} (new : List (QueueTask κ α))
    (hbell : t'.bell = t.bell) (hpending : t'.pending.Perm (new ++ t.pending)) :
    Summons t t' new := by
  refine ⟨fun h => hbell ▸ h, ?_⟩
  unfold tasks
  rw [hbell]
  exact (hpending.append_left _).trans (List.perm_append_comm_assoc _ _ _)

theorem summons_scheduled {schedule : Schedule (QueueTask κ α)} (new : List (QueueTask κ α))
    (hpending : schedule.pending.Perm (new ++ t.pending)) : Summons t { t with schedule } new :=
  summons_of_bell_eq new rfl hpending

theorem summons_ringIf (p : WorkQueue κ × Bool) :
    Summons t (t.after (SharedQueue.ringIf p.2 ⟨p.1, t.bell⟩)) [] where
  bell h := SharedQueue.sound_ringIf (s := ⟨p.1, t.bell⟩) h p.2
  tasks := tasks_perm_of_called []
    ((SharedQueue.called_ringIf _).trans (List.append_nil _).symm) (pending_after_perm _)

theorem summons_add (k : κ) : Summons t (t.add k) [] := summons_ringIf _

theorem summons_done (k : κ) : Summons t (t.done k) [] := summons_ringIf _

theorem summons_shutDown : Summons t t.shutDown [] where
  bell := Bell.Sound.ringAll
  tasks := tasks_perm_of_called [] rfl (pending_after_perm _)

/-- The sleeper of a delayed addition. -/
def sleepers (t : TimedQueue κ α) (k : κ) (delay : Nat) : List (QueueTask κ α) :=
  if t.queue.down ∨ delay = 0 then [] else [.sleeper k delay]

theorem summons_addAfter (k : κ) (delay : Nat) :
    Summons t (t.addAfter k delay) (t.sleepers k delay) := by
  unfold addAfter sleepers
  by_cases hdown : t.queue.down = true
  · rw [if_pos hdown, if_pos (Or.inl hdown)]
    exact summons_of_bell_eq [] rfl (List.Perm.refl _)
  · rw [if_neg hdown]
    split
    · next hdelay =>
      rw [if_pos (Or.inr hdelay)]
      exact summons_add k
    · next hdelay =>
      rw [if_neg (by simp [hdown, hdelay])]
      exact summons_scheduled [_] (t.schedule.pending_spawn_perm _)

/-- A task that attempts to get a key is at no place after that, or waits. -/
theorem attempt_summons {task : Nat} (hbell : t.bell.Sound) (ht : task ∉ t.bell.waiting) :
    (t.attempt task).2.bell.Sound ∧ (t.attempt task).2.tasks.Perm
      ((if (t.attempt task).1 = .blocked then [.called task] else []) ++ t.tasks) := by
  have hpresent := hbell.not_mem_present_answer ht
  have hanswer := hbell.answer task
  refine ⟨SharedQueue.sound_attempt (s := ⟨t.queue, t.bell.answer task⟩) hanswer hpresent, ?_⟩
  have hcalled := SharedQueue.called_attempt (s := ⟨t.queue, t.bell.answer task⟩) hpresent
  have htasks : (t.attempt task).2.tasks.Perm _ :=
    tasks_perm_of_called (t := t) _ hcalled (pending_after_perm _)
  rwa [apply_ite (List.map _)] at htasks

end TimedQueue

end GameFleet
