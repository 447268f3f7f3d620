import GameFleet.Queue.Delayed

/-!
# Sound queues

A queue is sound (`WorkQueue.Sound`) if its keys are where they belong : a waiting key
waits once, is dirty and is with no worker, and as long as the queue is not down a dirty
key that is with no worker waits. The empty queue is sound, and every operation keeps a
queue sound, `WorkQueue.done` only of a key that a worker has (`WorkQueue.Sound.done`).

The operations of a queue in virtual time come down to those of the queue
(`TimedQueue.grows_addAfter`, `TimedQueue.attempt_cases` and the lemmas beside them). What
they do to the bell and to the schedule is not seen in the queue.
-/

set_option linter.unusedSectionVars false

namespace GameFleet

variable {κ α : Type} [Ordered κ]

namespace WorkQueue

/-! ## Where the keys are -/

/-- Each key is where it belongs. -/
structure Sound (q : WorkQueue κ) : Prop where
  nodup : q.waiting.Nodup
  dirty : ∀ k ∈ q.waiting, k ∈ q.dirty
  /-- A key that waits is with no worker. -/
  idle : ∀ k ∈ q.waiting, k ∉ q.processing
  /-- A key that needs work waits, unless a worker has it or the queue is down. -/
  waits : q.down = false → ∀ k ∈ q.dirty, k ∉ q.processing → k ∈ q.waiting

theorem sound_empty : (empty : WorkQueue κ).Sound := by
  constructor <;> simp [empty]

namespace Sound

variable {q : WorkQueue κ}

theorem mem_waiting_iff (h : q.Sound) (hup : q.down = false) (k : κ) :
    k ∈ q.waiting ↔ k ∈ q.dirty ∧ k ∉ q.processing :=
  ⟨fun hk => ⟨h.dirty k hk, h.idle k hk⟩, fun hk => h.waits hup k hk.1 hk.2⟩

end Sound

/-! ## Adding a key -/

/-- An addition changes nothing, or makes the key dirty while a worker has it, or makes it
dirty and puts it at the end of the line. -/
theorem add_cases (q : WorkQueue κ) (k : κ) :
    ((q.down = true ∨ k ∈ q.dirty) ∧ (q.add k).1 = q) ∨
    (k ∉ q.dirty ∧ k ∈ q.processing ∧ (q.add k).1 = { q with dirty := q.dirty ++ [k] }) ∨
    (k ∉ q.dirty ∧ k ∉ q.processing ∧
      (q.add k).1 = { q with dirty := q.dirty ++ [k], waiting := q.waiting ++ [k] }) := by
  unfold add
  by_cases hskip : q.down = true ∨ k ∈ q.dirty
  · exact Or.inl ⟨hskip, by rw [if_pos (by simpa using hskip)]⟩
  · have hdirty : k ∉ q.dirty := fun hk => hskip (Or.inr hk)
    rw [if_neg (by simpa using hskip)]
    by_cases hproc : k ∈ q.processing
    · exact Or.inr (Or.inl ⟨hdirty, hproc, by simp [hproc]⟩)
    · exact Or.inr (Or.inr ⟨hdirty, hproc, by simp [hproc]⟩)

theorem down_add (q : WorkQueue κ) (k : κ) : (q.add k).1.down = q.down := by
  rcases q.add_cases k with ⟨-, he⟩ | ⟨-, -, he⟩ | ⟨-, -, he⟩ <;> rw [he]

theorem Sound.add {q : WorkQueue κ} (h : q.Sound) (k : κ) : (q.add k).1.Sound := by
  rcases q.add_cases k with ⟨-, he⟩ | ⟨hd, hp, he⟩ | ⟨hd, hp, he⟩ <;> rw [he]
  · exact h
  · refine ⟨h.nodup, fun j hj => List.mem_append_left _ (h.dirty j hj), h.idle, ?_⟩
    intro hup j hj hjp
    rcases List.mem_append.1 hj with hj | hj
    · exact h.waits hup j hj hjp
    · exact absurd hp (List.mem_singleton.1 hj ▸ hjp)
  · have hw : k ∉ q.waiting := fun hk => hd (h.dirty k hk)
    refine ⟨?_, ?_, ?_, ?_⟩
    · exact List.nodup_append.2 ⟨h.nodup, by simp, by
        rintro a ha b hb rfl
        exact hw (List.mem_singleton.1 hb ▸ ha)⟩
    · intro j hj
      rcases List.mem_append.1 hj with hj | hj
      · exact List.mem_append_left _ (h.dirty j hj)
      · exact List.mem_append_right _ hj
    · intro j hj
      rcases List.mem_append.1 hj with hj | hj
      · exact h.idle j hj
      · rwa [List.mem_singleton.1 hj]
    · intro hup j hj hjp
      rcases List.mem_append.1 hj with hj | hj
      · exact List.mem_append_left _ (h.waits hup j hj hjp)
      · exact List.mem_append_right _ hj

/-- The key is dirty after an addition to a queue that is not down. -/
theorem mem_dirty_add {q : WorkQueue κ} (hup : q.down = false) (k : κ) :
    k ∈ (q.add k).1.dirty := by
  rcases q.add_cases k with ⟨hd, he⟩ | ⟨-, -, he⟩ | ⟨-, -, he⟩ <;> rw [he]
  · exact hd.resolve_left (by simp [hup])
  · simp
  · simp

/-! ## Growing queues -/

/-- What a queue can become while no key is handed out or taken back : keys only get dirty
and only get in line, at its end. -/
structure Grows (q r : WorkQueue κ) : Prop where
  sound : q.Sound → r.Sound
  waiting : q.waiting <+: r.waiting
  dirty : q.dirty ⊆ r.dirty
  processing : r.processing = q.processing

namespace Grows

theorem refl (q : WorkQueue κ) : q.Grows q :=
  ⟨id, List.prefix_refl _, List.Subset.refl _, rfl⟩

theorem of_eq {q r : WorkQueue κ} (h : r = q) : q.Grows r := h ▸ refl q

theorem trans {q r s : WorkQueue κ} (h : q.Grows r) (h' : r.Grows s) : q.Grows s :=
  ⟨h'.sound ∘ h.sound, h.waiting.trans h'.waiting, List.Subset.trans h.dirty h'.dirty,
    h'.processing.trans h.processing⟩

end Grows

theorem grows_add (q : WorkQueue κ) (k : κ) : q.Grows (q.add k).1 := by
  have hsound : q.Sound → (q.add k).1.Sound := fun h => h.add k
  rcases q.add_cases k with ⟨-, he⟩ | ⟨-, -, he⟩ | ⟨-, -, he⟩
  · rw [he]
    exact Grows.refl q
  · rw [he] at hsound ⊢
    exact ⟨hsound, List.prefix_refl _, List.subset_append_left _ _, rfl⟩
  · rw [he] at hsound ⊢
    exact ⟨hsound, List.prefix_append _ _, List.subset_append_left _ _, rfl⟩

theorem grows_countFailure (q : WorkQueue κ) (k : κ) : q.Grows (q.countFailure k) :=
  ⟨fun h => ⟨h.nodup, h.dirty, h.idle, h.waits⟩, List.prefix_refl _, List.Subset.refl _, rfl⟩

theorem grows_forget (q : WorkQueue κ) (k : κ) : q.Grows (q.forget k) :=
  ⟨fun h => ⟨h.nodup, h.dirty, h.idle, h.waits⟩, List.prefix_refl _, List.Subset.refl _, rfl⟩

theorem grows_shutDown (q : WorkQueue κ) : q.Grows q.shutDown :=
  ⟨fun h => ⟨h.nodup, h.dirty, h.idle, fun hup => by simp [shutDown] at hup⟩,
    List.prefix_refl _, List.Subset.refl _, rfl⟩

/-! ## Handing out and taking back -/

/-- The key that is handed out was the first in line, and is with a worker from then on. -/
theorem take?_eq_some {q r : WorkQueue κ} {k : κ} (h : q.take? = some (k, r)) :
    q.waiting = k :: r.waiting ∧ r.dirty = q.dirty.filter (· ≠ k) ∧
      r.processing = k :: q.processing ∧ r.down = q.down := by
  unfold take? at h
  split at h
  · simp at h
  · next heq =>
    obtain ⟨rfl, rfl⟩ := Prod.mk.inj (Option.some.inj h)
    exact ⟨heq, rfl, rfl, rfl⟩

theorem Sound.take? {q r : WorkQueue κ} {k : κ} (h : q.Sound) (ht : q.take? = some (k, r)) :
    r.Sound := by
  obtain ⟨hw, hd, hp, hdown⟩ := take?_eq_some ht
  have hnd := h.nodup
  rw [hw, List.nodup_cons] at hnd
  have hmem : ∀ j ∈ r.waiting, j ∈ q.waiting := fun j hj => hw ▸ List.mem_cons_of_mem _ hj
  have hne : ∀ j ∈ r.waiting, j ≠ k := fun j hj heq => hnd.1 (heq ▸ hj)
  refine ⟨hnd.2, ?_, ?_, ?_⟩
  · intro j hj
    rw [hd]
    exact List.mem_filter.2 ⟨h.dirty j (hmem j hj), by simpa using hne j hj⟩
  · intro j hj
    rw [hp, List.mem_cons, not_or]
    exact ⟨hne j hj, h.idle j (hmem j hj)⟩
  · intro hup j hj hjp
    rw [hp, List.mem_cons, not_or] at hjp
    rw [hd, List.mem_filter] at hj
    have hjw := h.waits (hdown ▸ hup) j hj.1 hjp.2
    rw [hw, List.mem_cons] at hjw
    exact hjw.resolve_left hjp.1

/-- A key that is taken back leaves the worker, and is put at the end of the line if it
was added in the meantime and the queue is not down. -/
theorem done_eq (q : WorkQueue κ) (k : κ) :
    (q.done k).1 = { q with
      processing := q.processing.filter (· ≠ k)
      waiting := q.waiting ++ if k ∈ q.dirty ∧ q.down = false then [k] else [] } := by
  unfold done
  by_cases hk : k ∈ q.dirty ∧ q.down = false
  · simp [hk]
  · rw [if_neg (by simpa using hk), if_neg hk]
    simp

theorem down_done (q : WorkQueue κ) (k : κ) : (q.done k).1.down = q.down := by
  rw [done_eq]

theorem Sound.done {q : WorkQueue κ} (h : q.Sound) {k : κ} (hk : k ∈ q.processing) :
    (q.done k).1.Sound := by
  have hw : k ∉ q.waiting := fun hkw => h.idle k hkw hk
  have hends : ∀ j ∈ (if k ∈ q.dirty ∧ q.down = false then [k] else []), j = k ∧ k ∈ q.dirty := by
    intro j hj
    split at hj
    · next hc => exact ⟨List.mem_singleton.1 hj, hc.1⟩
    · simp at hj
  rw [done_eq]
  refine ⟨?_, ?_, ?_, ?_⟩
  · refine List.nodup_append.2 ⟨h.nodup, by split <;> simp, ?_⟩
    rintro a ha b hb rfl
    exact hw ((hends a hb).1 ▸ ha)
  · intro j hj
    rcases List.mem_append.1 hj with hj | hj
    · exact h.dirty j hj
    · rw [(hends j hj).1]
      exact (hends j hj).2
  · intro j hj hjp
    rw [List.mem_filter] at hjp
    rcases List.mem_append.1 hj with hj | hj
    · exact h.idle j hj hjp.1
    · simp [(hends j hj).1] at hjp
  · intro hup j hj hjp
    change q.down = false at hup
    by_cases hjk : j = k
    · subst hjk
      exact List.mem_append_right _ (by simp [show j ∈ q.dirty from hj, hup])
    · refine List.mem_append_left _ (h.waits hup j hj fun hjq => hjp ?_)
      exact List.mem_filter.2 ⟨hjq, by simpa using hjk⟩

end WorkQueue

/-! ## Queues that tasks wait at -/

namespace SharedQueue

variable (s : SharedQueue κ)

theorem queue_ringIf (reason : Bool) : (s.ringIf reason).2.queue = s.queue := by
  unfold ringIf
  split <;> rfl

/-- An attempt to get a key takes one from the queue, or leaves the queue as it is. A
queue that is down gives no key. -/
theorem attempt_cases (task : Nat) :
    (∃ k q, s.queue.down = false ∧ s.queue.take? = some (k, q) ∧
      (s.attempt task).1 = .got k ∧ (s.attempt task).2.2.queue = q) ∨
    ((∀ k, (s.attempt task).1 ≠ .got k) ∧ (s.attempt task).2.2.queue = s.queue) := by
  by_cases hdown : s.queue.down = true
  · exact Or.inr (by simp [attempt, hdown])
  · cases htake : s.queue.take? with
    | some next =>
      obtain ⟨k, q⟩ := next
      refine Or.inl ⟨k, q, by simpa using hdown, rfl, ?_⟩
      simp [attempt, hdown, htake, queue_ringIf]
    | none => exact Or.inr (by simp [attempt, hdown, htake])

/-- Only from a queue that is down does a task come back with nothing. -/
theorem down_of_attempt_closed (task : Nat) (h : (s.attempt task).1 = .closed) :
    s.queue.down = true := by
  unfold attempt at h
  dsimp only at h
  split at h
  · assumption
  · split at h <;> cases h

end SharedQueue

/-! ## Queues in virtual time -/

namespace TimedQueue

variable (t : TimedQueue κ α)

theorem queue_add (k : κ) : (t.add k).queue = (t.queue.add k).1 :=
  SharedQueue.queue_ringIf _ _

theorem queue_done (k : κ) : (t.done k).queue = (t.queue.done k).1 :=
  SharedQueue.queue_ringIf _ _

theorem down_add (k : κ) : (t.add k).queue.down = t.queue.down :=
  (congrArg WorkQueue.down (t.queue_add k)).trans (t.queue.down_add k)

theorem down_done (k : κ) : (t.done k).queue.down = t.queue.down :=
  (congrArg WorkQueue.down (t.queue_done k)).trans (t.queue.down_done k)

theorem grows_add (k : κ) : t.queue.Grows (t.add k).queue := by
  rw [queue_add]
  exact t.queue.grows_add k

/-- A key that is added after a delay is added now if there is no delay, and later by a
task of its own if there is. -/
theorem queue_addAfter (k : κ) (delay : Nat) :
    (t.addAfter k delay).queue = if delay = 0 then (t.queue.add k).1 else t.queue := by
  unfold addAfter
  by_cases hdown : t.queue.down = true
  · rw [if_pos hdown]
    have hadd : (t.queue.add k).1 = t.queue := by simp [WorkQueue.add, hdown]
    rw [hadd, ite_self]
  · rw [if_neg hdown]
    split
    · exact t.queue_add k
    · rfl

theorem down_addAfter (k : κ) (delay : Nat) : (t.addAfter k delay).queue.down = t.queue.down := by
  rw [queue_addAfter]
  split
  · exact t.queue.down_add k
  · rfl

theorem grows_addAfter (k : κ) (delay : Nat) : t.queue.Grows (t.addAfter k delay).queue := by
  rw [queue_addAfter]
  split
  · exact t.queue.grows_add k
  · exact WorkQueue.Grows.refl _

theorem grows_addRateLimited (k : κ) : t.queue.Grows (t.addRateLimited k).queue := by
  refine (t.queue.grows_countFailure k).trans ?_
  exact grows_addAfter { t with shared := { t.shared with queue := t.queue.countFailure k } } k _

/-- An attempt to get a key takes one from the queue, or leaves the queue as it is. -/
theorem attempt_cases (task : Nat) :
    (∃ k q, t.queue.down = false ∧ t.queue.take? = some (k, q) ∧
      (t.attempt task).1 = .got k ∧ (t.attempt task).2.queue = q) ∨
    ((∀ k, (t.attempt task).1 ≠ .got k) ∧ (t.attempt task).2.queue = t.queue) :=
  SharedQueue.attempt_cases { t.shared with bell := t.shared.bell.answer task } task

theorem down_of_attempt_closed (task : Nat) (h : (t.attempt task).1 = .closed) :
    t.queue.down = true :=
  SharedQueue.down_of_attempt_closed { t.shared with bell := t.shared.bell.answer task } task h

end TimedQueue

end GameFleet
