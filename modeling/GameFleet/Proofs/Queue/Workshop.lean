import GameFleet.Proofs.Queue.Sound
import Mathlib.Logic.Relation
import Mathlib.Data.List.Nodup

/-!
# Workers at a queue

A `Workshop` is a queue in virtual time with what its workers hold : a task that gets a
key holds it until it is done with it. Clients add keys, now or after a delay, tasks look
for keys, wait and give up, sleepers wake, and the queue may go down, all in any order
(`Workshop.Step`). The one thing asked of a worker is to be done only with keys it holds.

`Workshop.orderly_of_reachable` is what every such run keeps. A key is with at most one
worker, waits at most once, and waits exactly when it is dirty and with no worker, until
the queue goes down. A key that was added stays dirty until it is handed out
(`Workshop.dirty_or_handed_of_run`), and keys are handed out in the order in which they got
in line.
-/

set_option linter.unusedSectionVars false

open Relation

namespace GameFleet

variable {κ α : Type} [Ordered κ]

structure Workshop (κ α : Type) [Ordered κ] where
  timed : TimedQueue κ α
  /-- The keys that tasks got and are not done with. -/
  held : List (Nat × κ)
  /-- The keys that got in line so far, in this order. -/
  lined : List κ
  /-- The keys that were handed out so far, in this order. -/
  handed : List κ

namespace Workshop

def queue (w : Workshop κ α) : WorkQueue κ := w.timed.queue

/-- A workshop with an empty queue. -/
def start (backoff : Backoff) : Workshop κ α := ⟨.new backoff, [], [], []⟩

/-! ## Moves -/

/-- The workshop when its queue has changed. The keys past the line as it was got in
line. -/
def after (w : Workshop κ α) (timed : TimedQueue κ α) : Workshop κ α :=
  { w with timed, lined := w.lined ++ timed.queue.waiting.drop w.queue.waiting.length }

/-- A task looks for a key, for the first time or because it was called. -/
def look (w : Workshop κ α) (task : Nat) : Workshop κ α :=
  match w.timed.attempt task with
  | (.got k, timed) => { w with timed, held := (task, k) :: w.held, handed := w.handed ++ [k] }
  | (_, timed) => { w with timed }

/-- A worker is done with a key. -/
def giveBack (w : Workshop κ α) (worker : Nat) (k : κ) : Workshop κ α :=
  { w.after (w.timed.done k) with held := w.held.erase (worker, k) }

/-- The turn of a task that was ready. -/
def turn (w : Workshop κ α) : QueueTask κ α → Workshop κ α
  | .called task => w.look task
  | .sleeper k delay => w.after (w.timed.setAlarm k delay)
  | .due k => w.after (w.timed.add k)
  | .own _ => w

/-- The workshop with another schedule of its tasks. -/
def scheduled (w : Workshop κ α) (schedule : Schedule (QueueTask κ α)) : Workshop κ α :=
  { w with timed := { w.timed with schedule } }

/-- What clients, workers, sleepers and time can do next. -/
inductive Step : Workshop κ α → Workshop κ α → Prop where
  | add (w : Workshop κ α) (k : κ) : Step w (w.after (w.timed.add k))
  | addAfter (w : Workshop κ α) (k : κ) (delay : Nat) : Step w (w.after (w.timed.addAfter k delay))
  | addRateLimited (w : Workshop κ α) (k : κ) : Step w (w.after (w.timed.addRateLimited k))
  | forget (w : Workshop κ α) (k : κ) : Step w (w.after (w.timed.forget k))
  | get (w : Workshop κ α) (task : Nat) : Step w (w.look task)
  | giveUp (w : Workshop κ α) (task : Nat) : Step w (w.after (w.timed.giveUp task))
  /-- A worker is done with a key that it holds. -/
  | done (w : Workshop κ α) (worker : Nat) (k : κ) (hk : (worker, k) ∈ w.held) :
    Step w (w.giveBack worker k)
  | shutDown (w : Workshop κ α) : Step w (w.after w.timed.shutDown)
  /-- Ready tasks take their turns in any order. -/
  | turn (w : Workshop κ α) (before : List (QueueTask κ α)) (task : QueueTask κ α)
    (after : List (QueueTask κ α)) (hready : w.timed.schedule.ready = before ++ task :: after) :
    Step w ((w.scheduled { w.timed.schedule with ready := before ++ after }).turn task)
  | pass (w : Workshop κ α) (time : Nat) (htime : w.timed.schedule.now ≤ time) :
    Step w (w.scheduled (w.timed.schedule.jump time))

/-- Any number of steps. -/
abbrev Run : Workshop κ α → Workshop κ α → Prop := ReflTransGen Step

/-- A workshop that a run from an empty queue leads to. -/
def Reachable (backoff : Backoff) (w : Workshop κ α) : Prop := Run (start backoff) w

/-! ## What a step does -/

/-- A look hands out the first key in line, which its task then holds, or finds nothing and
leaves the queue as it is. -/
theorem look_cases (w : Workshop κ α) (task : Nat) :
    (∃ k q, w.queue.take? = some (k, q) ∧ (w.look task).queue = q ∧
      (w.look task).held = (task, k) :: w.held ∧ (w.look task).handed = w.handed ++ [k] ∧
      (w.look task).lined = w.lined) ∨
    ((w.look task).queue = w.queue ∧ (w.look task).held = w.held ∧
      (w.look task).handed = w.handed ∧ (w.look task).lined = w.lined) := by
  rcases w.timed.attempt_cases task with ⟨k, q, -, htake, hgot, hq⟩ | ⟨hnone, hq⟩
  · have hlook : w.look task = { w with
        timed := (w.timed.attempt task).2
        held := (task, k) :: w.held
        handed := w.handed ++ [k] } := by
      unfold look
      split
      · next k' timed heq =>
        rw [heq] at hgot
        cases hgot
        simp [heq]
      · next heq => exact absurd (heq ▸ hgot) (by simp_all)
    rw [hlook]
    exact Or.inl ⟨k, q, htake, hq, rfl, rfl, rfl⟩
  · have hlook : w.look task = { w with timed := (w.timed.attempt task).2 } := by
      unfold look
      split
      · next heq => exact absurd (by rw [heq]) (hnone _)
      · next heq => simp [heq]
    rw [hlook]
    exact Or.inr ⟨hq, rfl, rfl, rfl⟩

/-- A line that only grew at its end has got the keys in line that are past the line as it
was. -/
theorem lined_after {w : Workshop κ α} {timed : TimedQueue κ α}
    (h : w.queue.waiting <+: timed.queue.waiting) (hline : w.lined = w.handed ++ w.queue.waiting) :
    (w.after timed).lined = (w.after timed).handed ++ (w.after timed).queue.waiting := by
  obtain ⟨got, hgot⟩ := h
  change w.lined ++ timed.queue.waiting.drop w.queue.waiting.length =
    w.handed ++ timed.queue.waiting
  rw [← hgot, List.drop_left, hline, List.append_assoc]

/-- When each key has one holder, a worker that is done with a key leaves the keys of all
others. -/
theorem mem_map_erase_iff {held : List (Nat × κ)} (hnd : (held.map Prod.snd).Nodup)
    {worker : Nat} {k : κ} (hk : (worker, k) ∈ held) (j : κ) :
    j ∈ (held.erase (worker, k)).map Prod.snd ↔ j ∈ held.map Prod.snd ∧ j ≠ k := by
  simp only [List.mem_map, (hnd.of_map _).mem_erase_iff]
  constructor
  · rintro ⟨e, ⟨hne, he⟩, rfl⟩
    exact ⟨⟨e, he, rfl⟩, fun heq => hne (List.inj_on_of_nodup_map hnd he hk heq)⟩
  · rintro ⟨⟨e, he, rfl⟩, hne⟩
    exact ⟨e, ⟨fun heq => hne (heq ▸ rfl), he⟩, rfl⟩

/-! ## Order -/

/-- The queue is sound, the keys with workers are those they hold, each with one worker,
and the keys in line are those that got in line and were not handed out yet. -/
structure Orderly (w : Workshop κ α) : Prop where
  sound : w.queue.Sound
  held_nodup : (w.held.map Prod.snd).Nodup
  mem_held : ∀ k, k ∈ w.held.map Prod.snd ↔ k ∈ w.queue.processing
  line : w.lined = w.handed ++ w.queue.waiting

theorem orderly_start (backoff : Backoff) : (start backoff : Workshop κ α).Orderly :=
  ⟨WorkQueue.sound_empty, List.nodup_nil, fun k => by simp [start, queue, TimedQueue.new,
    TimedQueue.queue, SharedQueue.new, WorkQueue.empty], rfl⟩

namespace Orderly

variable {w : Workshop κ α}

theorem scheduled (h : w.Orderly) (s : Schedule (QueueTask κ α)) : (w.scheduled s).Orderly :=
  ⟨h.sound, h.held_nodup, h.mem_held, h.line⟩

theorem after (h : w.Orderly) {timed : TimedQueue κ α} (hg : w.queue.Grows timed.queue) :
    (w.after timed).Orderly where
  sound := hg.sound h.sound
  held_nodup := h.held_nodup
  mem_held k := (h.mem_held k).trans (by
    rw [show (w.after timed).queue.processing = w.queue.processing from hg.processing])
  line := lined_after hg.waiting h.line

theorem look (h : w.Orderly) (task : Nat) : (w.look task).Orderly := by
  rcases w.look_cases task with
    ⟨k, q, htake, hq, hheld, hhanded, hlined⟩ | ⟨hq, hheld, hhanded, hlined⟩
  · obtain ⟨hw, -, hp, -⟩ := WorkQueue.take?_eq_some htake
    -- a key that waits is with no worker, so its new holder is its only one
    have hk : k ∉ w.held.map Prod.snd := by
      rw [h.mem_held]
      exact h.sound.idle k (by rw [hw]; exact List.mem_cons_self)
    refine ⟨hq ▸ h.sound.take? htake, ?_, fun j => ?_, ?_⟩
    · rw [hheld, List.map_cons, List.nodup_cons]
      exact ⟨hk, h.held_nodup⟩
    · rw [hheld, hq, hp, List.map_cons, List.mem_cons, List.mem_cons, h.mem_held]
    · rw [hlined, hhanded, hq, h.line, hw, List.append_assoc, List.singleton_append]
  · refine ⟨hq ▸ h.sound, hheld ▸ h.held_nodup, fun j => ?_, ?_⟩
    · rw [hheld, hq, h.mem_held]
    · rw [hlined, hhanded, hq, h.line]

theorem giveBack (h : w.Orderly) {worker : Nat} {k : κ} (hk : (worker, k) ∈ w.held) :
    (w.giveBack worker k).Orderly := by
  have hproc : k ∈ w.queue.processing := (h.mem_held k).1 (List.mem_map_of_mem hk)
  have hq : (w.timed.done k).queue = (w.queue.done k).1 := w.timed.queue_done k
  have hdone := w.queue.done_eq k
  refine ⟨?_, h.held_nodup.sublist (List.erase_sublist.map _), fun j => ?_, ?_⟩
  · change (w.timed.done k).queue.Sound
    exact hq ▸ h.sound.done hproc
  · change j ∈ (w.held.erase (worker, k)).map Prod.snd ↔ j ∈ (w.timed.done k).queue.processing
    rw [mem_map_erase_iff h.held_nodup hk, h.mem_held, hq, hdone]
    simp
  · refine lined_after ?_ h.line
    rw [hq, hdone]
    exact List.prefix_append _ _

theorem turn (h : w.Orderly) (task : QueueTask κ α) : (w.turn task).Orderly := by
  cases task with
  | called task => exact h.look task
  | sleeper k delay => exact h.after (WorkQueue.Grows.refl _)
  | due k => exact h.after (w.timed.grows_add k)
  | own a => exact h

theorem step {v : Workshop κ α} (h : w.Orderly) (hs : Step w v) : v.Orderly := by
  cases hs with
  | add k => exact h.after (w.timed.grows_add k)
  | addAfter k delay => exact h.after (w.timed.grows_addAfter k delay)
  | addRateLimited k => exact h.after (w.timed.grows_addRateLimited k)
  | forget k => exact h.after (w.queue.grows_forget k)
  | get task => exact h.look task
  | giveUp task => exact h.after (WorkQueue.Grows.refl _)
  | done worker k hk => exact h.giveBack hk
  | shutDown => exact h.after w.queue.grows_shutDown
  | turn before task after hready => exact (h.scheduled _).turn task
  | pass time htime => exact h.scheduled _

theorem run {v : Workshop κ α} (h : w.Orderly) (hr : Run w v) : v.Orderly := by
  induction hr with
  | refl => exact h
  | tail _ hs ih => exact ih.step hs

end Orderly

/-! ## No addition is lost -/

/-- The keys that were handed out between two moments of a run. -/
def handedSince (w v : Workshop κ α) : List κ := v.handed.drop w.handed.length

/-- What a step does to dirty keys and to the keys handed out : a key stays dirty or is
handed out. -/
structure Keeps (w v : Workshop κ α) : Prop where
  handed : w.handed <+: v.handed
  dirty : ∀ k ∈ w.queue.dirty, k ∈ v.queue.dirty ∨ k ∈ handedSince w v

namespace Keeps

variable {u v w : Workshop κ α}

theorem of_subset (hh : v.handed = w.handed) (hd : w.queue.dirty ⊆ v.queue.dirty) : Keeps w v :=
  ⟨hh ▸ List.prefix_refl _, fun _ hk => Or.inl (hd hk)⟩

theorem trans (h : Keeps u v) (h' : Keeps v w) : Keeps u w := by
  obtain ⟨a, ha⟩ := h.handed
  obtain ⟨b, hb⟩ := h'.handed
  have hsince : handedSince u w = handedSince u v ++ handedSince v w := by
    simp [handedSince, ← hb, ← ha]
  refine ⟨h.handed.trans h'.handed, fun k hk => ?_⟩
  rw [hsince, List.mem_append]
  rcases h.dirty k hk with hv | hv
  · exact (h'.dirty k hv).imp_right Or.inr
  · exact Or.inr (Or.inl hv)

theorem look (w : Workshop κ α) (task : Nat) : Keeps w (w.look task) := by
  rcases w.look_cases task with ⟨k, q, htake, hq, -, hhanded, -⟩ | ⟨hq, -, hhanded, -⟩
  · obtain ⟨-, hd, -, -⟩ := WorkQueue.take?_eq_some htake
    refine ⟨hhanded ▸ List.prefix_append _ _, fun j hj => ?_⟩
    by_cases hjk : j = k
    · exact Or.inr (by simp [handedSince, hhanded, hjk])
    · refine Or.inl ?_
      rw [hq, hd, List.mem_filter]
      exact ⟨hj, by simpa using hjk⟩
  · exact of_subset hhanded (by rw [hq]; exact List.Subset.refl _)

theorem turn (w : Workshop κ α) (task : QueueTask κ α) : Keeps w (w.turn task) := by
  cases task with
  | called task => exact look w task
  | sleeper k delay => exact of_subset rfl (List.Subset.refl _)
  | due k => exact of_subset rfl (w.timed.grows_add k).dirty
  | own a => exact of_subset rfl (List.Subset.refl _)

theorem giveBack (w : Workshop κ α) (worker : Nat) (k : κ) : Keeps w (w.giveBack worker k) := by
  refine of_subset rfl ?_
  change w.queue.dirty ⊆ (w.timed.done k).queue.dirty
  rw [w.timed.queue_done k, WorkQueue.done_eq]
  exact List.Subset.refl _

theorem step (hs : Step w v) : Keeps w v := by
  cases hs with
  | add k => exact of_subset rfl (w.timed.grows_add k).dirty
  | addAfter k delay => exact of_subset rfl (w.timed.grows_addAfter k delay).dirty
  | addRateLimited k => exact of_subset rfl (w.timed.grows_addRateLimited k).dirty
  | forget k => exact of_subset rfl (List.Subset.refl _)
  | get task => exact look w task
  | giveUp task => exact of_subset rfl (List.Subset.refl _)
  | done worker k hk => exact giveBack w worker k
  | shutDown => exact of_subset rfl (List.Subset.refl _)
  | turn before task after hready =>
    have hsched : Keeps w (w.scheduled { w.timed.schedule with ready := before ++ after }) :=
      of_subset rfl (List.Subset.refl _)
    exact hsched.trans (turn _ task)
  | pass time htime => exact of_subset rfl (List.Subset.refl _)

theorem run (hr : Run w v) : Keeps w v := by
  induction hr with
  | refl => exact of_subset rfl (List.Subset.refl _)
  | tail _ hs ih => exact ih.trans (step hs)

end Keeps

/-- A key that is added to a queue that is not down is dirty until it is handed out. -/
theorem dirty_or_handed_of_run {w v : Workshop κ α} {k : κ} (hup : w.queue.down = false)
    (hr : Run (w.after (w.timed.add k)) v) : k ∈ v.queue.dirty ∨ k ∈ handedSince w v := by
  refine (Keeps.run hr).dirty k ?_
  change k ∈ (w.timed.add k).queue.dirty
  rw [w.timed.queue_add k]
  exact WorkQueue.mem_dirty_add hup k

/-! ## Every run -/

/-- What holds whenever clients, workers, sleepers and time have done anything in any order
at a queue that was empty. Workers hold different keys, and those that are processing. A
key waits once, and only while no worker holds it, so none that some worker holds is
handed out. Until the queue goes down exactly the dirty keys that are not processing
wait. A dirty key is dirty until it is handed out, so one that is added before the queue
goes down is handed out after that or dirty. The keys that were handed out and those that
wait are the keys that got in line, in this order. -/
theorem orderly_of_reachable {backoff : Backoff} {w : Workshop κ α} (h : Reachable backoff w) :
    ((w.held.map Prod.snd).Nodup ∧ ∀ k, k ∈ w.held.map Prod.snd ↔ k ∈ w.queue.processing) ∧
    w.queue.waiting.Nodup ∧
    (∀ k ∈ w.queue.waiting, k ∉ w.queue.processing) ∧
    (∀ task k, (w.timed.attempt task).1 = .got k → ∀ worker, (worker, k) ∉ w.held) ∧
    (w.queue.down = false →
      ∀ k, k ∈ w.queue.waiting ↔ k ∈ w.queue.dirty ∧ k ∉ w.queue.processing) ∧
    (∀ v, Run w v → ∀ k ∈ w.queue.dirty, k ∈ v.queue.dirty ∨ k ∈ handedSince w v) ∧
    (w.queue.down = false → ∀ k v, Run (w.after (w.timed.add k)) v →
      k ∈ v.queue.dirty ∨ k ∈ handedSince w v) ∧
    w.lined = w.handed ++ w.queue.waiting := by
  have ho : w.Orderly := (orderly_start backoff).run h
  refine ⟨⟨ho.held_nodup, ho.mem_held⟩, ho.sound.nodup, ho.sound.idle, ?_,
    ho.sound.mem_waiting_iff, fun v hr => (Keeps.run hr).dirty,
    fun hup _ _ hr => dirty_or_handed_of_run hup hr, ho.line⟩
  intro task k hgot worker hk
  rcases w.timed.attempt_cases task with ⟨j, q, -, htake, hj, -⟩ | ⟨hnone, -⟩
  · obtain rfl : k = j := Attempt.got.inj (hgot.symm.trans hj)
    obtain ⟨hw, -⟩ := WorkQueue.take?_eq_some htake
    have hwait : k ∈ w.queue.waiting := by
      change k ∈ w.timed.queue.waiting
      rw [hw]
      exact List.mem_cons_self
    exact ho.sound.idle k hwait ((ho.mem_held k).1 (List.mem_map_of_mem hk))
  · exact hnone k hgot

/-- Two workers get two keys, one key is added again while its worker has it, and the worker
gives it back. -/
def readded : Workshop String Empty :=
  let w := start (.fixed 5 100)
  let w := w.after (w.timed.add "arena")
  let w := w.after (w.timed.add "lobby")
  let w := (w.look 0).look 1
  let w := w.after (w.timed.add "arena")
  w.giveBack 0 "arena"

theorem orderly_readded :
    Reachable (.fixed 5 100) readded ∧
      (readded.held = [(1, "lobby")] ∧ readded.queue.waiting = ["arena"]) ∧
      (readded.held.map Prod.snd).Nodup ∧
      (∀ k, k ∈ readded.queue.waiting ↔
        k ∈ readded.queue.dirty ∧ k ∉ readded.queue.processing) ∧
      readded.lined = readded.handed ++ readded.queue.waiting := by
  have h : Reachable (.fixed 5 100) readded :=
    (((((ReflTransGen.refl.tail (.add _ "arena")).tail (.add _ "lobby")).tail (.get _ 0)).tail
      (.get _ 1)).tail (.add _ "arena")).tail (.done _ 0 "arena" (by decide +kernel))
  obtain ⟨⟨hheld, -⟩, -, -, -, hwaiting, -, -, hline⟩ := orderly_of_reachable h
  exact ⟨h, by decide +kernel, hheld, hwaiting (by decide +kernel), hline⟩

end Workshop

end GameFleet
