import GameFleet.Queue.Bell
import Mathlib.Data.List.Basic
import Mathlib.Data.List.Nodup

/-!
# Tasks at a bell

A task is present at a bell while it waits there, and after a ring for one has called it
until it comes back or leaves (`Bell.present`). A bell is sound (`Bell.Sound`) if each task
is present once and no task waits while a ring is kept. `Bell.Sound.ring` and the lemmas
beside it say that every move of the bell keeps it sound, and which tasks are present then :
a ring only changes where a task is, and a task that leaves takes nothing with it.
-/

namespace GameFleet.Bell

variable {b : Bell} {task : Nat}

/-- The tasks that wait, and those that were called and have neither come back nor left. -/
def present (b : Bell) : List Nat := b.waiting ++ b.called

structure Sound (b : Bell) : Prop where
  nodup : b.present.Nodup
  kept : b.kept = true → b.waiting = []

theorem sound_new : new.Sound := ⟨by simp [new, present], fun h => by simp [new] at h⟩

/-! ## Rings -/

/-- A ring is kept, or calls the task that waits first. -/
theorem ring_cases (b : Bell) :
    (b.waiting = [] ∧ b.ring = (none, { b with kept := true })) ∨
    (∃ task rest, b.waiting = task :: rest ∧
      b.ring = (some task, { b with waiting := rest, called := task :: b.called })) := by
  unfold ring
  cases hw : b.waiting with
  | nil => exact Or.inl ⟨rfl, rfl⟩
  | cons task rest => exact Or.inr ⟨task, rest, rfl, rfl⟩

/-- The task that a ring calls is the one that has waited longest. -/
theorem toList_ring (b : Bell) : b.ring.1.toList ++ b.ring.2.waiting = b.waiting := by
  rcases b.ring_cases with ⟨hw, hr⟩ | ⟨task, rest, hw, hr⟩ <;> simp [hr, hw]

/-- A ring is not lost. -/
theorem kept_or_called_ring (b : Bell) : b.ring.2.kept = true ∨ b.ring.2.called ≠ [] := by
  rcases b.ring_cases with ⟨-, hr⟩ | ⟨task, rest, -, hr⟩ <;> simp [hr]

theorem present_ring_perm (b : Bell) : b.ring.2.present.Perm b.present := by
  rcases b.ring_cases with ⟨-, hr⟩ | ⟨task, rest, hw, hr⟩
  · rw [hr]
    exact List.Perm.refl _
  · rw [hr, present, present, hw]
    exact List.perm_middle

theorem Sound.ring (h : b.Sound) : b.ring.2.Sound := by
  refine ⟨(present_ring_perm b).nodup_iff.2 h.nodup, ?_⟩
  rcases b.ring_cases with ⟨hw, hr⟩ | ⟨task, rest, hw, hr⟩
  · simp [hr, hw]
  · intro hkept
    rw [hr] at hkept
    have hnil := h.kept hkept
    simp [hw] at hnil

theorem Sound.ringAll (h : b.Sound) : b.ringAll.2.Sound :=
  ⟨h.nodup.sublist (List.sublist_append_right _ _), fun _ => rfl⟩

/-! ## Coming and going -/

theorem Sound.arrive (h : b.Sound) (ht : task ∉ b.present) : (b.arrive task).2.Sound := by
  unfold Bell.arrive
  split
  · exact ⟨h.nodup, fun hkept => by simp at hkept⟩
  · next hkept =>
    refine ⟨?_, fun h' => absurd h' hkept⟩
    have hperm : (b.waiting ++ [task] ++ b.called).Perm (task :: b.present) := by
      rw [List.append_assoc, List.singleton_append]
      exact List.perm_middle
    exact hperm.nodup_iff.2 (List.nodup_cons.2 ⟨ht, h.nodup⟩)

/-- A task that comes is present, unless a ring was kept for it. -/
theorem mem_present_arrive {other : Nat} (ho : other ∈ (b.arrive task).2.present) :
    other ∈ b.present ∨ other = task ∧ (b.arrive task).1 = false := by
  unfold Bell.arrive at ho ⊢
  split at ho
  · exact Or.inl ho
  · next hkept =>
    rw [if_neg hkept]
    simp only [present, List.mem_append, List.mem_singleton] at ho ⊢
    rcases ho with (ho | ho) | ho
    · exact Or.inl (Or.inl ho)
    · exact Or.inr ⟨ho, trivial⟩
    · exact Or.inl (Or.inr ho)

/-- A task that is spared uses up the ring that was kept. -/
theorem arrive_of_spared (hspared : (b.arrive task).1 = true) :
    (b.arrive task).2 = { b with kept := false } := by
  unfold arrive at hspared ⊢
  split at hspared
  · next hkept => rw [if_pos hkept]
  · simp at hspared

theorem Sound.answer (h : b.Sound) (task : Nat) : (b.answer task).Sound :=
  ⟨h.nodup.sublist (List.Sublist.append_left List.erase_sublist _), h.kept⟩

/-- A task that was called is not present when it has come back. -/
theorem Sound.not_mem_present_answer (h : b.Sound) (ht : task ∉ b.waiting) :
    task ∉ (b.answer task).present := by
  have hcalled : b.called.Nodup := h.nodup.sublist (List.sublist_append_right _ _)
  simp [present, Bell.answer, ht, hcalled.mem_erase_iff]

theorem mem_present_answer {other : Nat} (ho : other ∈ (b.answer task).present) :
    other ∈ b.present := by
  simp only [present, Bell.answer, List.mem_append] at ho ⊢
  exact ho.imp_right List.mem_of_mem_erase

/-- A task that leaves is not present any more, and a call to it goes to the next. -/
theorem Sound.present_leave_perm (h : b.Sound) (task : Nat) :
    (b.leave task).2.present.Perm (b.present.erase task) := by
  have hdisjoint := List.disjoint_of_nodup_append h.nodup
  unfold Bell.leave
  split
  · next hc =>
    have hw : task ∉ b.waiting := fun hw => hdisjoint hw (by simpa using hc)
    refine (present_ring_perm _).trans ?_
    rw [present, present, List.erase_append_right _ hw]
  · next hc =>
    have hc : task ∉ b.called := by simpa using hc
    by_cases hw : task ∈ b.waiting
    · rw [present, present, List.erase_append_left _ hw]
    · rw [present, present, List.erase_of_not_mem hw, List.erase_append_right _ hw,
        List.erase_of_not_mem hc]

theorem Sound.leave (h : b.Sound) (task : Nat) : (b.leave task).2.Sound := by
  refine ⟨(h.present_leave_perm task).nodup_iff.2 (h.nodup.erase task), ?_⟩
  unfold Bell.leave
  split
  · have hanswer := h.answer task
    exact (Sound.ring hanswer).kept
  · intro hkept
    simp [h.kept hkept]

theorem Sound.mem_present_leave (h : b.Sound) {other : Nat}
    (ho : other ∈ (b.leave task).2.present) : other ∈ b.present ∧ other ≠ task := by
  rw [(h.present_leave_perm task).mem_iff, h.nodup.mem_erase_iff] at ho
  exact ⟨ho.2, ho.1⟩

/-- Whoever leaves takes no ring along : one that was kept is kept, and for a call that
was not followed another task is called. -/
theorem kept_or_called_leave (h : b.kept = true ∨ b.called ≠ []) (task : Nat) :
    (b.leave task).2.kept = true ∨ (b.leave task).2.called ≠ [] := by
  unfold Bell.leave
  split
  · exact kept_or_called_ring _
  · exact h

theorem waiting_leave_subset (b : Bell) (task : Nat) : (b.leave task).2.waiting ⊆ b.waiting := by
  unfold Bell.leave
  split
  · intro other ho
    have htasks := toList_ring { b with called := b.called.erase task }
    exact htasks ▸ List.mem_append_right _ ho
  · exact List.erase_subset

theorem waiting_ring_subset (b : Bell) : b.ring.2.waiting ⊆ b.waiting := fun _ ho =>
  b.toList_ring ▸ List.mem_append_right _ ho

/-- A task that comes, rings and leaves does to the bell what one does that leaves before it
rings : if its ring calls itself, its leave passes the call on. -/
theorem Sound.leave_ring_arrive (h : b.Sound) (ht : task ∉ b.present) :
    ((b.arrive task).2.ring.2.leave task).2 = ((b.arrive task).2.leave task).2.ring.2 := by
  obtain ⟨kept, waiting, called⟩ := b
  have hw : task ∉ waiting := fun hw => ht (List.mem_append_left _ hw)
  have hc : task ∉ called := fun hc => ht (List.mem_append_right _ hc)
  have hkept := h.kept
  cases kept with
  | true =>
    obtain rfl : waiting = [] := hkept rfl
    simp [Bell.arrive, Bell.ring, Bell.leave, hc]
  | false =>
    cases waiting with
    | nil => simp [Bell.arrive, Bell.ring, Bell.leave, hc]
    | cons first rest =>
      have hfirst : task ≠ first := fun heq => hw (heq ▸ List.mem_cons_self)
      have hrest : task ∉ rest := fun hr => hw (List.mem_cons_of_mem _ hr)
      simp [Bell.arrive, Bell.ring, Bell.leave, hc, hfirst, hfirst.symm,
        List.erase_append_right, hrest]

end GameFleet.Bell
