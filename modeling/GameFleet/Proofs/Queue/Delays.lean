import GameFleet.Proofs.Backoff
import GameFleet.Proofs.Queue.Sound
import GameFleet.Proofs.Queue.Workforce
import Mathlib.Data.List.Induction
import Mathlib.Data.List.TakeWhile

/-!
# Delays of rate-limited adds

A key that is added after a delay has a sleeper, in whose turn an alarm is set that goes off when
the delay has passed, and not before ; then the key is added (`TimedQueue.Adds`).

A history of a queue is what was done at it (`QueueCall`), by clients, by workers and by the
tasks that its schedule goes through. The count that the queue keeps of a key is the number of
its rate-limited adds since it was last forgotten in the history
(`TimedQueue.requeues_servedAll`), whatever else was done, as long as it is below the largest
count. So is the delay of the next one (`Backoff.Plain.delayed_of_history`), under a policy
without jitter.

A controller does at its queue what a history can tell (`Workforce.exists_traced_of_run`) : a
worker whose sync has failed makes a rate-limited add in two steps, with those of others in
between, and one whose sync has succeeded has the key forgotten.
-/

set_option linter.unusedSectionVars false

open Relation

namespace GameFleet

/-! ## Failures -/

variable {κ α : Type} [Ordered κ]

namespace WorkQueue

variable (q : WorkQueue κ)

theorem failures_add (k : κ) : (q.add k).1.failures = q.failures := by
  rcases q.add_cases k with ⟨-, he⟩ | ⟨-, -, he⟩ | ⟨-, -, he⟩ <;> rw [he]

theorem failures_take? {q r : WorkQueue κ} {k : κ} (h : q.take? = some (k, r)) :
    r.failures = q.failures := by
  unfold take? at h
  split at h
  · cases h
  · cases h
    rfl

theorem requeues_countFailure (j k : κ) :
    (q.countFailure j).requeues k = q.requeues k + if j = k then 1 else 0 := by
  unfold requeues countFailure
  rw [Table.find?_insert]
  split
  next heq =>
    subst heq
    rfl
  next => exact (UInt32.add_zero _).symm

theorem requeues_forget (j k : κ) :
    (q.forget j).requeues k = if j = k then 0 else q.requeues k := by
  unfold requeues forget
  rw [Table.find?_erase]
  split <;> rfl

theorem requeues_eq_of_failures {q r : WorkQueue κ} (h : r.failures = q.failures) (k : κ) :
    r.requeues k = q.requeues k := by
  rw [requeues, requeues, h]

/-- A count below the largest one is the number of which it is made. -/
theorem count_of_lt {q : WorkQueue κ} {k : κ} {n : Nat} (h : q.requeues k = UInt32.ofNat n)
    (hn : n + 1 < UInt32.size) : (q.requeues k).toNat = n ∧ q.isFull k = false := by
  have hcount : (q.requeues k).toNat = n := by
    rw [h]
    exact UInt32.toNat_ofNat_of_lt (Nat.lt_of_succ_lt hn)
  refine ⟨hcount, ?_⟩
  rw [isFull, beq_eq_false_iff_ne]
  intro hfull
  rw [hfull] at hcount
  have hlargest : (4294967295 : UInt32).toNat + 1 = UInt32.size := rfl
  omega

end WorkQueue

namespace TimedQueue

variable (q : TimedQueue κ α)

/-- The queue when a failure of a key is counted, which is the first thing that a rate-limited
add does. -/
def counted (k : κ) : TimedQueue κ α :=
  { q with shared := { q.shared with queue := q.queue.countFailure k } }

theorem addRateLimited_eq (k : κ) :
    q.addRateLimited k =
      (q.counted k).addAfter k (q.backoff.steady (q.queue.requeues k).toNat) := rfl

theorem failures_addAfter (k : κ) (delay : Nat) :
    (q.addAfter k delay).queue.failures = q.queue.failures := by
  rw [queue_addAfter]
  split
  · exact q.queue.failures_add k
  · rfl

theorem backoff_addAfter (k : κ) (delay : Nat) : (q.addAfter k delay).backoff = q.backoff := by
  unfold addAfter
  split
  · rfl
  · split <;> rfl

theorem failures_attempt (task : Nat) : (q.attempt task).2.queue.failures = q.queue.failures := by
  rcases q.attempt_cases task with ⟨k, r, -, htake, -, hqueue⟩ | ⟨-, hqueue⟩
  · rw [hqueue, WorkQueue.failures_take? htake]
  · rw [hqueue]

end TimedQueue

/-! ## Delayed adds -/

/-- An alarm goes off when its time has come, and not before. -/
theorem Schedule.ready_jump_sleep {τ : Type} (s : Schedule τ) (delay : Nat) (task : τ)
    (time : Nat) : ((s.sleep delay task).jump time).ready.Perm
      ((if s.now + delay ≤ time then [task] else []) ++ (s.jump time).ready) := by
  have hsplit := List.takeWhile_append_dropWhile (p := fun a => decide (a.1 ≤ s.now + delay))
    (l := s.alarms)
  have hhead := List.head?_dropWhile_not (fun a => decide (a.1 ≤ s.now + delay)) s.alarms
  unfold sleep jump
  dsimp only
  generalize hearly : s.alarms.takeWhile (fun a => decide (a.1 ≤ s.now + delay)) = early at hsplit ⊢
  generalize s.alarms.dropWhile (fun a => decide (a.1 ≤ s.now + delay)) = late at hsplit hhead ⊢
  rw [← hsplit]
  by_cases htime : s.now + delay ≤ time
  · have hall : ∀ a ∈ early, decide (a.1 ≤ time) = true := by
      intro a ha
      have hdue := List.mem_takeWhile_imp (hearly ▸ ha)
      exact decide_eq_true ((of_decide_eq_true hdue).trans htime)
    rw [if_pos htime, List.takeWhile_append_of_pos hall, List.takeWhile_append_of_pos hall,
      List.takeWhile_cons_of_pos (by simpa using htime), List.map_append, List.map_append,
      List.map_cons]
    exact (List.perm_middle.append_left s.ready).trans List.perm_middle
  · -- the later alarms are not due either
    have hnone : late.takeWhile (fun a => decide (a.1 ≤ time)) = [] := by
      cases late with
      | nil => rfl
      | cons a late =>
        have hlate : s.now + delay < a.1 := by simpa using hhead
        exact List.takeWhile_cons_of_neg (by simp; omega)
    rw [if_neg htime, List.takeWhile_append, List.takeWhile_append, hnone,
      List.takeWhile_cons_of_neg (by simpa using htime)]
    exact List.Perm.refl _

namespace TimedQueue

/-- What it comes to that a key is added after a delay. -/
structure Adds (q r : TimedQueue κ α) (k : κ) (delay : Nat) : Prop where
  /-- A queue that is down takes no key. -/
  down : q.queue.down = true → r = q
  /-- Without a delay the key is added at once. -/
  atOnce : q.queue.down = false → delay = 0 → r = q.add k ∧ k ∈ r.queue.dirty
  /-- With one a sleeper is started, and the queue is as before. -/
  later : q.queue.down = false → delay ≠ 0 →
    r = { q with schedule := q.schedule.spawn (.sleeper k delay) }
  /-- Whenever the sleeper has its turn, it sets an alarm that goes off when the delay has
  passed. -/
  alarm : ∀ s : TimedQueue κ α, (s.setAlarm k delay).shared = s.shared ∧
    ∀ time, ((s.setAlarm k delay).schedule.jump time).ready.Perm
      ((if s.schedule.now + delay ≤ time then [.due k] else []) ++ (s.schedule.jump time).ready)
  /-- Then the key is added. -/
  due : ∀ s : TimedQueue κ α, s.queue.down = false → k ∈ (s.add k).queue.dirty

variable (q : TimedQueue κ α)

theorem mem_dirty_add {q : TimedQueue κ α} (hup : q.queue.down = false) (k : κ) :
    k ∈ (q.add k).queue.dirty := by
  rw [queue_add]
  exact WorkQueue.mem_dirty_add hup k

theorem adds_addAfter (k : κ) (delay : Nat) : q.Adds (q.addAfter k delay) k delay := by
  constructor
  case down => exact fun hdown => if_pos hdown
  case atOnce =>
    intro hup hdelay
    have hadd : q.addAfter k delay = q.add k := by simp [addAfter, hup, hdelay]
    exact ⟨hadd, hadd ▸ mem_dirty_add hup k⟩
  case later => exact fun hup hdelay => by simp [addAfter, hup, hdelay]
  case alarm => exact fun s => ⟨rfl, s.schedule.ready_jump_sleep delay (.due k)⟩
  case due => exact fun s hup => mem_dirty_add hup k

end TimedQueue

/-! ## Histories -/

/-- What is done at a queue. -/
inductive QueueCall (κ α : Type) where
  | add (key : κ)
  | addAfter (key : κ) (delay : Nat)
  | addRateLimited (key : κ)
  /-- A rate-limited add has come as far as to count the failure. -/
  | count (key : κ)
  | forget (key : κ)
  /-- A task looks for a key. -/
  | get (task : Nat)
  | giveUp (task : Nat)
  | done (key : κ)
  | shutDown
  /-- Tasks get ready or have their turns, alarms are set or go off, time passes. -/
  | reschedule (schedule : Schedule (QueueTask κ α))

namespace QueueCall

/-- The key is forgotten. -/
def forgets (k : κ) : QueueCall κ α → Bool
  | .forget j => decide (j = k)
  | _ => false

/-- A rate-limited add of the key begins. -/
def putsOff (k : κ) : QueueCall κ α → Bool
  | .addRateLimited j => decide (j = k)
  | .count j => decide (j = k)
  | _ => false

/-- How many rate-limited adds of the key there were since it was last forgotten. -/
def putOffs (k : κ) (calls : List (QueueCall κ α)) : Nat :=
  (calls.reverse.takeWhile fun call => !call.forgets k).countP (putsOff k)

theorem putOffs_concat (k : κ) (calls : List (QueueCall κ α)) (call : QueueCall κ α) :
    putOffs k (calls ++ [call]) =
      if call.forgets k then 0 else putOffs k calls + if call.putsOff k then 1 else 0 := by
  unfold putOffs
  rw [List.reverse_append, List.reverse_singleton, List.singleton_append, List.takeWhile_cons]
  cases hforgets : call.forgets k
  · simp [List.countP_cons]
  · simp

/-- Until the key is forgotten the number only grows. -/
theorem putOffs_le_append {k : κ} {more : List (QueueCall κ α)}
    (h : ∀ call ∈ more, call.forgets k = false) (calls : List (QueueCall κ α)) :
    putOffs k calls ≤ putOffs k (calls ++ more) := by
  induction more using List.reverseRecOn with
  | nil => rw [List.append_nil]
  | append_singleton more call ih =>
    have hcall : call.forgets k = false := h call (by simp)
    have hmore := ih fun c hc => h c (List.mem_append_left _ hc)
    rw [← List.append_assoc, putOffs_concat, hcall]
    simp only [Bool.false_eq_true, if_false]
    omega

/-- Once the key is forgotten there are none until a rate-limited add of it begins. -/
theorem putOffs_of_forget {k : κ} {more : List (QueueCall κ α)}
    (h : ∀ call ∈ more, call.putsOff k = false) (calls : List (QueueCall κ α)) :
    putOffs k (calls ++ .forget k :: more) = 0 := by
  induction more using List.reverseRecOn with
  | nil =>
    rw [putOffs_concat]
    simp [forgets]
  | append_singleton more call ih =>
    have hcall : call.putsOff k = false := h call (by simp)
    have hmore := ih fun c hc => h c (List.mem_append_left _ hc)
    rw [← List.cons_append, ← List.append_assoc, putOffs_concat, hcall, hmore]
    simp

end QueueCall

namespace TimedQueue

/-- The queue after a call. -/
def served (q : TimedQueue κ α) : QueueCall κ α → TimedQueue κ α
  | .add k => q.add k
  | .addAfter k delay => q.addAfter k delay
  | .addRateLimited k => q.addRateLimited k
  | .count k => q.counted k
  | .forget k => q.forget k
  | .get task => (q.attempt task).2
  | .giveUp task => q.giveUp task
  | .done k => q.done k
  | .shutDown => q.shutDown
  | .reschedule schedule => { q with schedule }

/-- The queue after some calls. -/
def servedAll (q : TimedQueue κ α) (calls : List (QueueCall κ α)) : TimedQueue κ α :=
  calls.foldl served q

theorem servedAll_append (q : TimedQueue κ α) (calls more : List (QueueCall κ α)) :
    q.servedAll (calls ++ more) = (q.servedAll calls).servedAll more :=
  List.foldl_append

theorem backoff_served (q : TimedQueue κ α) (call : QueueCall κ α) :
    (q.served call).backoff = q.backoff := by
  cases call with
  | addAfter k delay => exact q.backoff_addAfter k delay
  | addRateLimited k => exact (q.counted k).backoff_addAfter k _
  | _ => rfl

/-- One call forgets a key, counts it once more or leaves its count as it is. -/
theorem requeues_served (q : TimedQueue κ α) (call : QueueCall κ α) (k : κ) :
    (q.served call).queue.requeues k =
      if call.forgets k then 0 else q.queue.requeues k + if call.putsOff k then 1 else 0 := by
  have hquiet {r : TimedQueue κ α} (h : r.queue.failures = q.queue.failures) :
      r.queue.requeues k = q.queue.requeues k + 0 := by
    rw [UInt32.add_zero]
    exact WorkQueue.requeues_eq_of_failures h k
  have hcount (j : κ) : (q.counted j).queue.requeues k = _ := q.queue.requeues_countFailure j k
  cases call with
  | add j =>
    refine hquiet ?_
    change (q.add j).queue.failures = _
    rw [q.queue_add j, q.queue.failures_add j]
  | addAfter j delay => exact hquiet (q.failures_addAfter j delay)
  | addRateLimited j =>
    simp only [QueueCall.forgets, QueueCall.putsOff, decide_eq_true_eq, Bool.false_eq_true,
      if_false]
    rw [← hcount j]
    exact WorkQueue.requeues_eq_of_failures ((q.counted j).failures_addAfter j _) k
  | count j =>
    simp only [QueueCall.forgets, QueueCall.putsOff, decide_eq_true_eq, Bool.false_eq_true,
      if_false]
    exact hcount j
  | forget j =>
    simp only [QueueCall.forgets, QueueCall.putsOff, decide_eq_true_eq, Bool.false_eq_true,
      if_false, UInt32.add_zero]
    exact q.queue.requeues_forget j k
  | get task => exact hquiet (q.failures_attempt task)
  | giveUp task => exact hquiet rfl
  | done j =>
    refine hquiet ?_
    change (q.done j).queue.failures = _
    rw [q.queue_done j, q.queue.done_eq j]
  | shutDown => exact hquiet rfl
  | reschedule schedule => exact hquiet rfl

theorem backoff_servedAll (q : TimedQueue κ α) (calls : List (QueueCall κ α)) :
    (q.servedAll calls).backoff = q.backoff := by
  induction calls using List.reverseRecOn with
  | nil => rfl
  | append_singleton calls call ih =>
    rw [servedAll_append]
    exact (backoff_served _ call).trans ih

/-- The count that a queue keeps of a key is that of its history. -/
theorem requeues_servedAll (b : Backoff) (calls : List (QueueCall κ α)) (k : κ) :
    ((TimedQueue.new b).servedAll calls).queue.requeues k =
      UInt32.ofNat (QueueCall.putOffs k calls) := by
  induction calls using List.reverseRecOn with
  | nil => rfl
  | append_singleton calls call ih =>
    rw [servedAll_append, QueueCall.putOffs_concat]
    refine (requeues_served _ call k).trans ?_
    rw [ih]
    split
    · rfl
    · rw [UInt32.ofNat_add]
      split <;> rfl

end TimedQueue

/-! ## Workers -/

namespace Workforce

/-- A call at the queue of a controller. -/
abbrev Call := QueueCall String ControllerTask

variable {o : Overflow}

/-- A run of a workforce, with the calls at its queue that its steps make. -/
inductive Traced (o : Overflow) : Workforce → List Call → Workforce → Prop where
  | refl (p : Workforce) : Traced o p [] p
  | tail {p p' p'' : Workforce} {calls made : List Call} (h : Traced o p calls p')
    (hs : Step o p' p'') (hmade : p''.timed = p'.timed.servedAll made) :
    Traced o p (calls ++ made) p''

theorem timed_of_traced {p p' : Workforce} {calls : List Call} (h : Traced o p calls p') :
    p'.timed = p.timed.servedAll calls := by
  induction h with
  | refl => rfl
  | tail _ _ hmade ih => rw [hmade, ih, TimedQueue.servedAll_append]

theorem exists_calls_looked (p : Workforce) (worker : Nat) :
    ∃ calls : List Call, (p.looked worker).timed = p.timed.servedAll calls := by
  unfold looked Controller.look
  rcases hattempt : p.controller.timed.attempt worker with ⟨result, timed⟩
  have htimed : timed = (p.timed.attempt worker).2 := (congrArg Prod.snd hattempt).symm
  subst htimed
  cases result with
  | got k => exact ⟨[.get worker], rfl⟩
  | closed => exact ⟨[.get worker, .reschedule _], rfl⟩
  | blocked => exact ⟨[.get worker], rfl⟩

theorem exists_calls_ended (p : Workforce) (worker : Nat) (k : String) :
    ∃ calls : List Call, (p.ended worker k).timed = p.timed.servedAll calls := by
  unfold ended
  rcases p.controller.script.next k with ⟨outcome, script⟩
  cases outcome with
  | ok => exact ⟨[], rfl⟩
  | err => exact ⟨[], rfl⟩
  | panic => exact ⟨[.reschedule _], rfl⟩

theorem exists_calls_turn (p : Workforce) (task : WorkTask) :
    ∃ calls : List Call, (p.turn task).timed = p.timed.servedAll calls := by
  cases task with
  | called worker => exact ⟨[], rfl⟩
  | sleeper k delay => exact ⟨[.reschedule _], rfl⟩
  | due k => exact ⟨[.add k], rfl⟩
  | own a =>
    cases a with
    | lifecycle => exact ⟨[], rfl⟩
    | synced worker k => exact p.exists_calls_ended worker k

theorem exists_calls_act (p : Workforce) (worker : Nat) (noise : Rat) (chore : Chore) :
    ∃ calls : List Call, (p.act o worker noise chore).timed = p.timed.servedAll calls := by
  cases chore with
  | handed k => exact ⟨[.reschedule _], rfl⟩
  | succeeded k => exact ⟨[.forget k], rfl⟩
  | failed k =>
    by_cases hcounts : Counts o p k
    · exact ⟨[.count k], congrArg timed (act_of_counts hcounts worker noise)⟩
    · refine ⟨[.reschedule (p.overrun worker).timed.schedule], ?_⟩
      rw [act_of_not_counts hcounts]
      rfl
  | counted k delay => exact ⟨[.addAfter k delay], rfl⟩
  | told k => exact ⟨[.done k], rfl⟩
  | free => exact p.exists_calls_looked worker

theorem exists_calls_advance {c c' : Controller} (h : Advance c c') :
    ∃ calls : List Call, c'.timed = c.timed.servedAll calls := by
  cases h with
  | passCache i rest => exact ⟨[], rfl⟩
  | loseCache i rest => exact ⟨[.shutDown], rfl⟩
  | quit i rest => exact ⟨[.shutDown], rfl⟩
  | startWorkers => exact ⟨[.reschedule _], rfl⟩
  | close => exact ⟨[.shutDown], rfl⟩
  | finish => exact ⟨[], rfl⟩

/-- Whatever a workforce does next comes down to calls at its queue. -/
theorem exists_calls_of_step {p p' : Workforce} (hs : Step o p p') :
    ∃ calls : List Call, p'.timed = p.timed.servedAll calls := by
  cases hs with
  | add k => exact ⟨[.add k], rfl⟩
  | addAfter k delay => exact ⟨[.addAfter k delay], rfl⟩
  | countFailure k hcounts => exact ⟨[.count k], rfl⟩
  | forget k => exact ⟨[.forget k], rfl⟩
  | changeCache i change =>
    change ∃ calls : List Call, (p.controller.changeCache i change.apply).timed = _
    unfold Controller.changeCache
    dsimp only
    split
    · exact ⟨[.reschedule _], rfl⟩
    · exact ⟨[], rfl⟩
  | changeShutdown change => exact ⟨[.reschedule _], rfl⟩
  | pass schedule hpending => exact ⟨[.reschedule schedule], rfl⟩
  | turn task rest hready =>
    obtain ⟨calls, hcalls⟩ := (p.popped rest).exists_calls_turn task
    exact ⟨.reschedule _ :: calls, hcalls⟩
  | act before worker chore after noise hchore =>
    exact (p.withChores (before ++ after)).exists_calls_act worker noise chore
  | advance c h => exact exists_calls_advance h

/-- Every run can be told with its calls. -/
theorem exists_traced_of_run {p p' : Workforce} (hr : Run o p p') :
    ∃ calls, Traced o p calls p' := by
  induction hr with
  | refl => exact ⟨[], .refl p⟩
  | tail _ hs ih =>
    obtain ⟨calls, htraced⟩ := ih
    obtain ⟨made, hmade⟩ := exists_calls_of_step hs
    exact ⟨calls ++ made, htraced.tail hs hmade⟩

end Workforce

/-! ## Every history -/

namespace Backoff.Plain

variable {b : Backoff} {base limit : Nat}

/-- A rate-limited add of a key is delayed for those of it since it was last forgotten. -/
theorem adds_addRateLimited (h : b.Plain base limit) (calls : List (QueueCall κ α)) {k : κ}
    (hcalls : QueueCall.putOffs k calls + 1 < UInt32.size) :
    (((TimedQueue.new b).servedAll calls).counted k).Adds
      (((TimedQueue.new b).servedAll calls).addRateLimited k) k
      (min (base * 2 ^ min (QueueCall.putOffs k calls) 62) limit) := by
  have hcount := WorkQueue.count_of_lt (TimedQueue.requeues_servedAll b calls k) hcalls
  rw [TimedQueue.addRateLimited_eq, TimedQueue.backoff_servedAll, hcount.1, ← h.delay_eq _ 0]
  exact TimedQueue.adds_addAfter _ k _

/-- So is the add of a key whose sync a worker saw fail. -/
theorem act_failed (h : b.Plain base limit) {o : Overflow} {p : Workforce}
    {calls : List Workforce.Call} (hp : p.timed = (TimedQueue.new b).servedAll calls) {k : String}
    (hcalls : QueueCall.putOffs k calls + 1 < UInt32.size) (worker : Nat) (noise : Rat) :
    p.act o worker noise (.failed k) = (p.counted k).assigned worker
      (.counted k (min (base * 2 ^ min (QueueCall.putOffs k calls) 62) limit)) := by
  have hrequeues : p.queue.requeues k = UInt32.ofNat (QueueCall.putOffs k calls) :=
    (congrArg (fun t : TimedQueue _ _ => t.queue.requeues k) hp).trans
      (TimedQueue.requeues_servedAll b calls k)
  obtain ⟨hcount, hfull⟩ := WorkQueue.count_of_lt hrequeues hcalls
  have hbackoff : p.timed.backoff = b := by
    rw [hp, TimedQueue.backoff_servedAll]
    rfl
  rw [Workforce.act_of_counts (Or.inr hfull), hcount, hbackoff, h.delay_eq]

/-- The delays of rate-limited adds under a policy without jitter, whose first and longest
delays are whole milliseconds. Whatever was done at a queue before, a rate-limited add of a key
is delayed by the base, doubled for each rate-limited add of the key since it was last forgotten
and cut at the limit : when that has passed the key is added (`TimedQueue.Adds`). So the delays
of a key do not decrease until it is forgotten, and then start over. At the queue of a controller,
whatever goes on there, a worker whose sync of a key has failed puts it off by such a delay, and
after a sync that has succeeded the delays of the key start over. -/
theorem delayed_of_history (h : b.Plain base limit) :
    (∀ (calls : List (QueueCall κ α)) (k : κ), QueueCall.putOffs k calls + 1 < UInt32.size →
      let q := (TimedQueue.new b).servedAll calls
      let delay := min (base * 2 ^ min (QueueCall.putOffs k calls) 62) limit
      (q.counted k).Adds (q.addRateLimited k) k delay ∧ delay ≤ limit ∧
      (∀ more : List (QueueCall κ α), (∀ call ∈ more, call.forgets k = false) →
        QueueCall.putOffs k (calls ++ more) + 1 < UInt32.size →
        let r := (TimedQueue.new b).servedAll (calls ++ more)
        ∃ longer, delay ≤ longer ∧ (r.counted k).Adds (r.addRateLimited k) k longer) ∧
      ∀ more : List (QueueCall κ α), (∀ call ∈ more, call.putsOff k = false) →
        let r := (TimedQueue.new b).servedAll (calls ++ .forget k :: more)
        (r.counted k).Adds (r.addRateLimited k) k (min base limit)) ∧
    ∀ {o : Overflow} {c : Controller} {p : Workforce} {calls : List Workforce.Call},
      c.timed = .new b → Workforce.Traced o (.of c) calls p →
      ∀ (worker : Nat) (k : String) (noise : Rat) (chores : List (Nat × Chore)),
        (QueueCall.putOffs k calls + 1 < UInt32.size →
          (p.withChores chores).act o worker noise (.failed k) =
            ((p.withChores chores).counted k).assigned worker
              (.counted k (min (base * 2 ^ min (QueueCall.putOffs k calls) 62) limit))) ∧
        (∀ delay, (∃ r, p.timed.Adds r k delay ∧
          (p.withChores chores).act o worker noise (.counted k delay) =
            ((p.withChores chores).fed r).assigned worker (.told k)) ∧
          (p.turn (.sleeper k delay)).timed = p.timed.setAlarm k delay ∧
          (p.turn (.due k)).timed = p.timed.add k) ∧
        ∀ {p' : Workforce} {more : List Workforce.Call},
          Workforce.Traced o ((p.withChores chores).act o worker noise (.succeeded k)) more p' →
          (∀ call ∈ more, call.putsOff k = false) →
          ∀ (worker' : Nat) (noise' : Rat) (chores' : List (Nat × Chore)),
            (p'.withChores chores').act o worker' noise' (.failed k) =
              ((p'.withChores chores').counted k).assigned worker'
                (.counted k (min base limit)) := by
  have hfresh : min (base * 2 ^ min 0 62) limit = min base limit := by
    rw [Nat.zero_min, pow_zero, Nat.mul_one]
  refine ⟨fun calls k hcalls => ⟨h.adds_addRateLimited calls hcalls, Nat.min_le_right _ _,
    fun more hmore hlonger => ?_, fun more hmore => ?_⟩, ?_⟩
  · have hle := QueueCall.putOffs_le_append hmore calls
    refine ⟨_, ?_, h.adds_addRateLimited (calls ++ more) hlonger⟩
    gcongr
    decide
  · have hnone := QueueCall.putOffs_of_forget hmore calls
    have hadds := h.adds_addRateLimited (k := k) (calls ++ .forget k :: more)
      (by rw [hnone]; decide)
    rwa [hnone, hfresh] at hadds
  · intro o c p calls hc htraced worker k noise chores
    have htimed : p.timed = (TimedQueue.new b).servedAll calls := by
      rw [Workforce.timed_of_traced htraced, ← hc]
      rfl
    refine ⟨fun hcalls => h.act_failed (p := p.withChores chores) htimed hcalls worker noise,
      fun delay => ⟨⟨_, p.timed.adds_addAfter k delay, rfl⟩, rfl, rfl⟩, ?_⟩
    intro p' more htraced' hmore worker' noise' chores'
    -- the sync that succeeded has forgotten the key
    have htimed' : p'.timed = (TimedQueue.new b).servedAll (calls ++ .forget k :: more) := by
      rw [Workforce.timed_of_traced htraced', TimedQueue.servedAll_append, ← htimed]
      rfl
    have hnone := QueueCall.putOffs_of_forget hmore calls
    have hact := h.act_failed (o := o) (p := p'.withChores chores') (k := k) htimed'
      (by rw [hnone]; decide) worker' noise'
    rwa [hnone, hfresh] at hact

end Backoff.Plain

/-- From a tenth of a second to five seconds. -/
theorem Backoff.plain_fixed : (Backoff.fixed 100 5000).Plain 100 5000 :=
  ⟨rfl, rfl, by decide, by decide, le_refl _⟩

/-- A controller at whose queue nothing was done. -/
def Controller.idle : Controller :=
  .start "fleet" (.fixed 100 5000) ⟨.empty, .empty⟩ 1 [] false

/-- A controller at whose queue two keys were put off. -/
def Workforce.troubled : Workforce := ((Workforce.of .idle).counted "a").counted "b"

theorem Workforce.traced_troubled :
    Workforce.Traced .kills (.of .idle) ([] ++ [.count "a"] ++ [.count "b"]) Workforce.troubled :=
  ((Traced.refl _).tail (.countFailure _ "a" (Or.inr rfl)) rfl).tail
    (.countFailure _ "b" (Or.inr rfl)) rfl

/-- After two rate-limited adds of a key, and one of another, the next is delayed by four times
the base : a sleeper is to see to it. A worker whose sync failed after one doubles the base, and
one whose sync failed next after one that succeeded does not. -/
theorem delayed_fixed :
    let q : TimedQueue String Unit := (TimedQueue.new (.fixed 100 5000)).servedAll
      [.addRateLimited "a", .addRateLimited "b", .done "a", .addRateLimited "a"]
    (q.queue.down = false ∧ q.addRateLimited "a" =
      { q.counted "a" with schedule := q.schedule.spawn (.sleeper "a" 400) }) ∧
      Workforce.troubled.act .kills 0 0 (.failed "a") =
        (Workforce.troubled.counted "a").assigned 0 (.counted "a" 200) ∧
      (Workforce.troubled.act .kills 0 0 (.succeeded "a")).act .kills 1 0 (.failed "a") =
        ((Workforce.troubled.act .kills 0 0 (.succeeded "a")).counted "a").assigned 1
          (.counted "a" 100) := by
  obtain ⟨hqueue, hworkers⟩ :=
    Backoff.Plain.delayed_of_history (κ := String) (α := Unit) Backoff.plain_fixed
  obtain ⟨hfailed, -, hsucceeded⟩ := hworkers rfl Workforce.traced_troubled 0 "a" 0 []
  have hadds := (hqueue [.addRateLimited "a", .addRateLimited "b", .done "a", .addRateLimited "a"]
    "a" (by decide)).1
  have hup : ((TimedQueue.new (.fixed 100 5000)).servedAll
      [.addRateLimited "a", .addRateLimited "b", .done "a", .addRateLimited "a"] :
        TimedQueue String Unit).queue.down = false := by decide +kernel
  exact ⟨⟨hup, hadds.later hup (by decide)⟩, hfailed (by decide),
    hsucceeded (.refl _) (by simp) 1 0 [(0, .told "a")]⟩

end GameFleet
