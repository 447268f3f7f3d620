import GameFleet.Proofs.Queue.Bells
import GameFleet.Proofs.Queue.Sound
import Mathlib.Logic.Function.Basic
import Mathlib.Logic.Relation

/-!
# No ring is lost

A `WaitingRoom` is a queue that tasks wait at, with where each task is that gets a key. An
operation holds the queue only for a moment, and rings after it has let go of it; a task
that gets a key comes to the bell, looks for a key, rings for the next task if it leaves
keys in line, and leaves the bell, or else waits and comes again when it is called. Other
operations and tasks move between any two of these moves (`WaitingRoom.Turn`), clients
begin operations and give up waiting at any time (`WaitingRoom.Call`), and nobody is asked
to be done only with keys that were handed out.

`WaitingRoom.nothing_waits_of_settled` : when no task can move and some task still waits for
a key, there is no key in line and the queue is not down. Until then keys in line are seen
to (`WaitingRoom.Attended`) by a ring that is due or kept, a task that was called, or one
that is about to look or to ring. Two additions may share a ring, and a ring may go to a
task that finds no key or to one that gives up, but whoever takes a key and leaves others in
line rings again.

The operations of `SharedQueue`, which do all this at once, are runs of such moves
(`WaitingRoom.run_attempt` and the lemmas beside it).
-/

open Relation

namespace GameFleet

/-- Where a task is that gets a key. -/
inductive GetStage (κ : Type) where
  /-- It gets no key, or has given up. -/
  | out
  /-- It is about to come to the bell. -/
  | coming
  /-- It is about to look for a key. It waits at the bell unless it was spared that. -/
  | looking (spared : Bool)
  /-- It has taken a key, and is about to ring since others are in line. -/
  | passing (key : κ)
  /-- It is about to leave the bell with a key, or with nothing as the queue is down. -/
  | leaving (key? : Option κ)
  /-- It has found nothing. It waits at the bell unless it was spared that. -/
  | waiting (spared : Bool)
  /-- It has come back. -/
  | back (key? : Option κ)
  deriving DecidableEq

namespace GetStage

variable {κ : Type}

/-- The task gets no key, or has come back. -/
def isOver : GetStage κ → Bool
  | .out | .back _ => true
  | _ => false

/-- The task may be present at the bell. -/
def atBell : GetStage κ → Bool
  | .looking spared | .waiting spared => !spared
  | .passing _ | .leaving _ => true
  | _ => false

/-- The task is about to look for a key, or to ring for the next task. -/
def isHeading : GetStage κ → Bool
  | .coming | .looking _ | .passing _ => true
  | _ => false

theorem atBell_of_isOver {stage : GetStage κ} (h : stage.isOver = true) : stage.atBell = false := by
  cases stage <;> simp_all [isOver, atBell]

theorem isHeading_of_isOver {stage : GetStage κ} (h : stage.isOver = true) :
    stage.isHeading = false := by
  cases stage <;> simp_all [isOver, isHeading]

/-- Where a task is after an attempt to get a key. -/
def ofAttempt : Attempt κ → GetStage κ
  | .got k => .back (some k)
  | .closed => .back none
  | .blocked => .waiting false

end GetStage

variable {κ : Type} [Ordered κ]

structure WaitingRoom (κ : Type) [Ordered κ] where
  queue : WorkQueue κ
  bell : Bell
  /-- How many operations have put a key in line and are about to ring. -/
  rings : Nat
  /-- How many operations have taken the queue down and are about to ring for all. -/
  alarms : Nat
  stage : Nat → GetStage κ

namespace WaitingRoom

/-- An empty queue at which nobody waits. -/
def start : WaitingRoom κ := ⟨.empty, .new, 0, 0, fun _ => .out⟩

/-- What the operations of a queue see of the room. -/
def shared (w : WaitingRoom κ) : SharedQueue κ := ⟨w.queue, w.bell⟩

/-! ## Moves -/

/-- An operation has changed the queue, and is about to ring if it put a key in line. -/
def entered (w : WaitingRoom κ) : WorkQueue κ × Bool → WaitingRoom κ
  | (queue, ring) => { w with queue, rings := w.rings + ring.toNat }

/-- An operation has taken the queue down. -/
def closed (w : WaitingRoom κ) : WaitingRoom κ :=
  { w with queue := w.queue.shutDown, alarms := w.alarms + 1 }

def moved (w : WaitingRoom κ) (task : Nat) (stage : GetStage κ) : WaitingRoom κ :=
  { w with stage := Function.update w.stage task stage }

/-- A task comes to the bell, before it looks, so that it misses no ring. -/
def come (w : WaitingRoom κ) (task : Nat) : WaitingRoom κ :=
  let (spared, bell) := w.bell.arrive task
  moved { w with bell } task (.looking spared)

/-- A task looks for a key. -/
def look (w : WaitingRoom κ) (task : Nat) (spared : Bool) : WaitingRoom κ :=
  if w.queue.down then w.moved task (.leaving none)
  else
    match w.queue.take? with
    | some (k, queue) =>
      moved { w with queue } task
        (if queue.waiting.isEmpty then .leaving (some k) else .passing k)
    | none => w.moved task (.waiting spared)

/-- A task that has taken a key rings for the next one. -/
def pass (w : WaitingRoom κ) (task : Nat) (k : κ) : WaitingRoom κ :=
  moved { w with bell := w.bell.ring.2 } task (.leaving (some k))

/-- A task leaves the bell. -/
def leave (w : WaitingRoom κ) (task : Nat) (stage : GetStage κ) : WaitingRoom κ :=
  moved { w with bell := (w.bell.leave task).2 } task stage

/-- A task that was called comes back. -/
def wake (w : WaitingRoom κ) (task : Nat) : WaitingRoom κ :=
  moved { w with bell := w.bell.answer task } task .coming

/-- What clients can begin. -/
inductive Call : WaitingRoom κ → WaitingRoom κ → Prop where
  | add (w : WaitingRoom κ) (k : κ) : Call w (w.entered (w.queue.add k))
  | done (w : WaitingRoom κ) (k : κ) : Call w (w.entered (w.queue.done k))
  | shutDown (w : WaitingRoom κ) : Call w w.closed
  | get (w : WaitingRoom κ) (task : Nat) (hover : (w.stage task).isOver = true) :
    Call w (w.moved task .coming)
  /-- A task that waits gives up, also if it was called and does not know yet. -/
  | giveUp (w : WaitingRoom κ) (task : Nat) (spared : Bool)
    (hstage : w.stage task = .waiting spared) : Call w (w.leave task .out)

/-- What was begun and can go on. -/
inductive Turn : WaitingRoom κ → WaitingRoom κ → Prop where
  | ring (w : WaitingRoom κ) (hdue : 0 < w.rings) :
    Turn w { w with bell := w.bell.ring.2, rings := w.rings - 1 }
  | ringAll (w : WaitingRoom κ) (hdue : 0 < w.alarms) :
    Turn w { w with bell := w.bell.ringAll.2, alarms := w.alarms - 1 }
  | come (w : WaitingRoom κ) (task : Nat) (hstage : w.stage task = .coming) : Turn w (w.come task)
  | look (w : WaitingRoom κ) (task : Nat) (spared : Bool)
    (hstage : w.stage task = .looking spared) : Turn w (w.look task spared)
  | pass (w : WaitingRoom κ) (task : Nat) (k : κ) (hstage : w.stage task = .passing k) :
    Turn w (w.pass task k)
  | leave (w : WaitingRoom κ) (task : Nat) (k? : Option κ) (hstage : w.stage task = .leaving k?) :
    Turn w (w.leave task (.back k?))
  /-- A task that was spared to wait, or was called by a ring for one or for all, goes on. -/
  | wake (w : WaitingRoom κ) (task : Nat) (spared : Bool) (hstage : w.stage task = .waiting spared)
    (hcalled : spared = true ∨ task ∉ w.bell.waiting) : Turn w (w.wake task)

/-- What can happen next. -/
inductive Step (w v : WaitingRoom κ) : Prop where
  | call (h : Call w v)
  | turn (h : Turn w v)

/-- Any number of steps. -/
abbrev Run : WaitingRoom κ → WaitingRoom κ → Prop := ReflTransGen Step

/-- A room that a run from an empty queue leads to. -/
def Reachable (w : WaitingRoom κ) : Prop := Run start w

/-- Nothing that was begun can go on. -/
def Settled (w : WaitingRoom κ) : Prop := ∀ v, ¬Turn w v

/-! ## Attendance -/

/-- Keys in line are seen to, and so are the tasks that wait at the bell of a queue that is
down. -/
structure Attended (w : WaitingRoom κ) : Prop where
  bell : w.bell.Sound
  present : ∀ task ∈ w.bell.present, (w.stage task).atBell = true
  /-- Someone will look for the keys in line. -/
  due : w.queue.down = false → w.queue.waiting ≠ [] →
    0 < w.rings ∨ (w.bell.kept = true ∨ w.bell.called ≠ []) ∨
      ∃ task, (w.stage task).isHeading = true
  /-- A ring for all is due if a task waits that does not know that the queue is down. -/
  down : w.queue.down = true →
    0 < w.alarms ∨ ∀ task ∈ w.bell.waiting, ∀ spared, w.stage task ≠ .waiting spared

theorem attended_start : (start : WaitingRoom κ).Attended where
  bell := Bell.sound_new
  present := by simp [start, Bell.new, Bell.present]
  due := by simp [start, WorkQueue.empty]
  down := by simp [start, WorkQueue.empty]

namespace Attended

variable {w : WaitingRoom κ}

/-- A task moves and leaves the bell as it is. -/
theorem moved (h : w.Attended) {task : Nat} {stage : GetStage κ}
    (hpresent : task ∈ w.bell.present → stage.atBell = true)
    (hheading : w.queue.down = false → w.queue.waiting ≠ [] →
      stage.isHeading = true ∨ (w.stage task).isHeading = false)
    (hwaiting : w.queue.down = true → ∀ spared, stage ≠ .waiting spared) :
    (w.moved task stage).Attended where
  bell := h.bell
  present other ho := by
    by_cases hot : other = task
    · subst hot
      simpa [WaitingRoom.moved] using hpresent ho
    · simpa [WaitingRoom.moved, hot] using h.present other ho
  due hup hline := by
    rcases h.due hup hline with hr | hb | ⟨other, ho⟩
    · exact Or.inl hr
    · exact Or.inr (Or.inl hb)
    · refine Or.inr (Or.inr ?_)
      rcases hheading hup hline with hs | hs
      · exact ⟨task, by simpa [WaitingRoom.moved] using hs⟩
      · have hot : other ≠ task := fun heq => by simp [heq, hs] at ho
        exact ⟨other, by simpa [WaitingRoom.moved, hot] using ho⟩
  down hdown := by
    refine (h.down hdown).imp_right fun hall other ho spared => ?_
    by_cases hot : other = task
    · subst hot
      simpa [WaitingRoom.moved] using hwaiting hdown spared
    · simpa [WaitingRoom.moved, hot] using hall other ho spared

theorem entered (h : w.Attended) {p : WorkQueue κ × Bool} (hdown : p.1.down = w.queue.down)
    (hring : p.2 = true ∨ p.1.waiting = w.queue.waiting) : (w.entered p).Attended where
  bell := h.bell
  present := h.present
  due hup hline := by
    rcases hring with hring | hsame
    · exact Or.inl (by simp [WaitingRoom.entered, hring])
    · refine (h.due (hdown ▸ hup) (hsame ▸ hline)).imp_left fun hr => ?_
      exact Nat.lt_of_lt_of_le hr (Nat.le_add_right _ _)
  down hd := h.down (hdown ▸ hd)

theorem add (h : w.Attended) (k : κ) : (w.entered (w.queue.add k)).Attended := by
  refine h.entered (w.queue.down_add k) ?_
  unfold WorkQueue.add
  split
  · exact Or.inr rfl
  · dsimp only
    split
    · exact Or.inr rfl
    · exact Or.inl rfl

theorem done (h : w.Attended) (k : κ) : (w.entered (w.queue.done k)).Attended := by
  refine h.entered (w.queue.down_done k) ?_
  unfold WorkQueue.done
  dsimp only
  split
  · exact Or.inl rfl
  · exact Or.inr rfl

theorem closed (h : w.Attended) : w.closed.Attended where
  bell := h.bell
  present := h.present
  due hup := by simp [WaitingRoom.closed, WorkQueue.shutDown] at hup
  down _ := Or.inl (Nat.succ_pos _)

/-- A ring of someone who has put a key in line or has taken one. -/
theorem ring (h : w.Attended) (rings : Nat) :
    Attended { w with bell := w.bell.ring.2, rings } where
  bell := h.bell.ring
  present task ht := h.present task ((Bell.present_ring_perm _).mem_iff.1 ht)
  due _ _ := Or.inr (Or.inl (Bell.kept_or_called_ring _))
  down hdown := (h.down hdown).imp_right fun hall task ht =>
    hall task (Bell.waiting_ring_subset _ ht)

theorem ringAll (h : w.Attended) :
    Attended { w with bell := w.bell.ringAll.2, alarms := w.alarms - 1 } where
  bell := h.bell.ringAll
  present task ht := h.present task (List.mem_append_right _ ht)
  due := h.due
  down _ := Or.inr fun task ht => by cases ht

theorem come (h : w.Attended) {task : Nat} (hstage : w.stage task = .coming) :
    (w.come task).Attended where
  bell := h.bell.arrive fun ht => by simpa [hstage, GetStage.atBell] using h.present task ht
  present other ho := by
    by_cases hot : other = task
    · subst hot
      rcases Bell.mem_present_arrive ho with ho | ⟨-, hspared⟩
      · have hbell := h.present other ho
        simp [hstage, GetStage.atBell] at hbell
      · simp [WaitingRoom.come, WaitingRoom.moved, GetStage.atBell, hspared]
    · have hbefore : other ∈ w.bell.present :=
        (Bell.mem_present_arrive ho).resolve_right fun hother => hot hother.1
      simpa [WaitingRoom.come, WaitingRoom.moved, hot] using h.present other hbefore
  due _ _ := Or.inr (Or.inr ⟨task, by
    simp [WaitingRoom.come, WaitingRoom.moved, GetStage.isHeading]⟩)
  down hdown := by
    refine (h.down hdown).imp_right fun hall other ho spared => ?_
    by_cases hot : other = task
    · simp [WaitingRoom.come, WaitingRoom.moved, hot]
    · have hbefore : other ∈ w.bell.waiting := by
        simp only [WaitingRoom.come, WaitingRoom.moved, Bell.arrive] at ho
        split at ho
        · exact ho
        · simpa [hot] using ho
      simpa [WaitingRoom.come, WaitingRoom.moved, hot] using hall other hbefore spared

/-- Whatever becomes of the line, a task that is about to look or to ring sees to it. -/
theorem queue (h : w.Attended) (task : Nat) (hheading : (w.stage task).isHeading = true)
    {queue : WorkQueue κ} (hdown : queue.down = w.queue.down) : Attended { w with queue } where
  bell := h.bell
  present := h.present
  due _ _ := Or.inr (Or.inr ⟨task, hheading⟩)
  down hd := h.down (hdown ▸ hd)

/-- A task that takes a key and leaves others in line is about to ring, and one that finds
nothing has seen that there is nothing. -/
theorem look (h : w.Attended) {task : Nat} {spared : Bool}
    (hstage : w.stage task = .looking spared) : (w.look task spared).Attended := by
  have hbell : task ∈ w.bell.present → spared = false := fun ht => by
    simpa [hstage, GetStage.atBell] using h.present task ht
  unfold WaitingRoom.look
  split
  · next hdown =>
    refine h.moved (fun _ => rfl) (fun hup => ?_) (fun _ _ => nofun)
    simp [hdown] at hup
  · next hup =>
    have hup : w.queue.down = false := by simpa using hup
    split
    · next k queue htake =>
      have hdown : queue.down = w.queue.down := (WorkQueue.take?_eq_some htake).2.2.2
      refine (h.queue task (by simp [hstage, GetStage.isHeading]) hdown).moved ?_ ?_ ?_
      · intro _
        split <;> rfl
      · intro _ hline
        rw [if_neg (by simpa using hline)]
        exact Or.inl rfl
      · intro hd
        rw [hdown, hup] at hd
        cases hd
    · next hnone =>
      have hline : w.queue.waiting = [] := by
        unfold WorkQueue.take? at hnone
        split at hnone
        · assumption
        · cases hnone
      refine h.moved (fun ht => ?_) (fun _ hne => absurd hline hne) (fun hd => ?_)
      · simp [GetStage.atBell, hbell ht]
      · rw [hup] at hd
        cases hd

theorem pass (h : w.Attended) {task : Nat} {k : κ} : (w.pass task k).Attended := by
  have hring := h.ring w.rings
  refine ⟨hring.bell, fun other ho => ?_, fun _ _ => ?_, fun hdown => ?_⟩
  · by_cases hot : other = task
    · simp [WaitingRoom.pass, WaitingRoom.moved, hot, GetStage.atBell]
    · simpa [WaitingRoom.pass, WaitingRoom.moved, hot] using hring.present other ho
  · exact Or.inr (Or.inl (Bell.kept_or_called_ring _))
  · refine (hring.down hdown).imp_right fun hall other ho spared => ?_
    by_cases hot : other = task
    · simp [WaitingRoom.pass, WaitingRoom.moved, hot]
    · simpa [WaitingRoom.pass, WaitingRoom.moved, hot] using hall other ho spared

/-- A task that is not about to look or to ring leaves, and what called it calls the next. -/
theorem leave (h : w.Attended) {task : Nat} {stage : GetStage κ}
    (hheading : (w.stage task).isHeading = false) (hwaiting : ∀ spared, stage ≠ .waiting spared) :
    (w.leave task stage).Attended where
  bell := h.bell.leave task
  present other ho := by
    obtain ⟨hbefore, hot⟩ := h.bell.mem_present_leave ho
    simpa [WaitingRoom.leave, WaitingRoom.moved, hot] using h.present other hbefore
  due hup hline := by
    rcases h.due hup hline with hr | hb | ⟨other, ho⟩
    · exact Or.inl hr
    · exact Or.inr (Or.inl (Bell.kept_or_called_leave hb task))
    · have hot : other ≠ task := fun heq => by simp [heq, hheading] at ho
      exact Or.inr (Or.inr ⟨other, by simpa [WaitingRoom.leave, WaitingRoom.moved, hot] using ho⟩)
  down hdown := by
    refine (h.down hdown).imp_right fun hall other ho spared => ?_
    by_cases hot : other = task
    · subst hot
      simpa [WaitingRoom.leave, WaitingRoom.moved] using hwaiting spared
    · have hbefore := Bell.waiting_leave_subset _ _ ho
      simpa [WaitingRoom.leave, WaitingRoom.moved, hot] using hall other hbefore spared

theorem wake (h : w.Attended) {task : Nat} {spared : Bool} (hstage : w.stage task = .waiting spared)
    (hcalled : spared = true ∨ task ∉ w.bell.waiting) : (w.wake task).Attended where
  bell := h.bell.answer task
  present other ho := by
    have hbefore := Bell.mem_present_answer ho
    have hot : other ≠ task := by
      rintro rfl
      have hspared : spared = false := by
        simpa [hstage, GetStage.atBell] using h.present other hbefore
      exact h.bell.not_mem_present_answer (hcalled.resolve_left (by simp [hspared])) ho
    simpa [WaitingRoom.wake, WaitingRoom.moved, hot] using h.present other hbefore
  due _ _ := Or.inr (Or.inr ⟨task, by
    simp [WaitingRoom.wake, WaitingRoom.moved, GetStage.isHeading]⟩)
  down hdown := by
    refine (h.down hdown).imp_right fun hall other ho spared' => ?_
    by_cases hot : other = task
    · simp [WaitingRoom.wake, WaitingRoom.moved, hot]
    · simpa [WaitingRoom.wake, WaitingRoom.moved, hot] using hall other ho spared'

/-- A task that gets no key is not at the bell. -/
theorem not_mem_present (h : w.Attended) {task : Nat} (hover : (w.stage task).isOver = true) :
    task ∉ w.bell.present := fun ht => by
  have hbell := h.present task ht
  rw [GetStage.atBell_of_isOver hover] at hbell
  cases hbell

theorem call {v : WaitingRoom κ} (h : w.Attended) (hc : Call w v) : v.Attended := by
  cases hc with
  | add k => exact h.add k
  | done k => exact h.done k
  | shutDown => exact h.closed
  | get task hover =>
    refine h.moved (fun ht => absurd ht ?_) (fun _ _ => Or.inl rfl) (fun _ _ => nofun)
    exact h.not_mem_present hover
  | giveUp task spared hstage =>
    exact h.leave (by simp [hstage, GetStage.isHeading]) (fun _ => nofun)

theorem turn {v : WaitingRoom κ} (h : w.Attended) (ht : Turn w v) : v.Attended := by
  cases ht with
  | ring hdue => exact h.ring _
  | ringAll hdue => exact h.ringAll
  | come task hstage => exact h.come hstage
  | look task spared hstage => exact h.look hstage
  | pass task k hstage => exact h.pass
  | leave task k? hstage =>
    exact h.leave (by simp [hstage, GetStage.isHeading]) (fun _ => nofun)
  | wake task spared hstage hcalled => exact h.wake hstage hcalled

theorem step {v : WaitingRoom κ} (h : w.Attended) (hs : Step w v) : v.Attended := by
  cases hs with
  | call hc => exact h.call hc
  | turn ht => exact h.turn ht

theorem run {v : WaitingRoom κ} (h : w.Attended) (hr : Run w v) : v.Attended := by
  induction hr with
  | refl => exact h
  | tail _ hs ih => exact ih.step hs

end Attended

/-! ## Operations as runs -/

variable {w : WaitingRoom κ}

/-- The room with what an operation made of the queue and the bell. -/
def withShared (w : WaitingRoom κ) (s : SharedQueue κ) : WaitingRoom κ :=
  { w with queue := s.queue, bell := s.bell }

/-- The room when an operation of a task is that far. -/
def placed (w : WaitingRoom κ) (s : SharedQueue κ) (task : Nat) (stage : GetStage κ) :
    WaitingRoom κ :=
  (w.withShared s).moved task stage

@[simp] theorem stage_placed (s : SharedQueue κ) (task : Nat) (stage : GetStage κ) :
    (w.placed s task stage).stage task = stage := by
  simp [placed, moved]

theorem stage_placed_of_ne {task other : Nat} (hne : other ≠ task) (s : SharedQueue κ)
    (stage : GetStage κ) : (w.placed s task stage).stage other = w.stage other := by
  simp [placed, moved, withShared, hne]

@[simp] theorem withShared_placed (s s' : SharedQueue κ) (task : Nat) (stage stage' : GetStage κ) :
    ((w.placed s task stage).withShared s').moved task stage' = w.placed s' task stage' := by
  simp [placed, moved, withShared]

@[simp] theorem moved_placed (s : SharedQueue κ) (task : Nat) (stage stage' : GetStage κ) :
    (w.placed s task stage).moved task stage' = w.placed s task stage' :=
  withShared_placed s s task stage stage'

theorem run_entered (w : WaitingRoom κ) (p : WorkQueue κ × Bool) :
    Run (w.entered p) (w.withShared (SharedQueue.ringIf p.2 ⟨p.1, w.bell⟩).2) := by
  obtain ⟨queue, ring⟩ := p
  cases ring with
  | false => exact ReflTransGen.refl
  | true => exact ReflTransGen.single (.turn (.ring _ (Nat.succ_pos _)))

theorem run_add (w : WaitingRoom κ) (k : κ) : Run w (w.withShared (w.shared.add k).2) :=
  (run_entered w _).head (.call (.add w k))

theorem run_done (w : WaitingRoom κ) (k : κ) : Run w (w.withShared (w.shared.done k).2) :=
  (run_entered w _).head (.call (.done w k))

theorem run_shutDown (w : WaitingRoom κ) : Run w (w.withShared w.shared.shutDown.2) :=
  (ReflTransGen.single (.turn (.ringAll w.closed (Nat.succ_pos _)))).head (.call (.shutDown w))

theorem run_giveUp (task : Nat) (spared : Bool) (hstage : w.stage task = .waiting spared) :
    Run w (w.placed (w.shared.giveUp task).2 task .out) :=
  ReflTransGen.single (.call (.giveUp w task spared hstage))

theorem run_come (s : SharedQueue κ) (task : Nat) :
    Run (w.placed s task .coming)
      (w.placed ⟨s.queue, (s.bell.arrive task).2⟩ task (.looking (s.bell.arrive task).1)) := by
  refine ReflTransGen.single (.turn ?_)
  have h := Turn.come (w.placed s task .coming) task (by simp)
  exact withShared_placed (w := w) s ⟨s.queue, (s.bell.arrive task).2⟩ task _ _ ▸ h

theorem run_leave (s : SharedQueue κ) (task : Nat) (k? : Option κ) :
    Run (w.placed s task (.leaving k?))
      (w.placed ⟨s.queue, (s.bell.leave task).2⟩ task (.back k?)) := by
  refine ReflTransGen.single (.turn ?_)
  have h := Turn.leave (w.placed s task (.leaving k?)) task k? (by simp)
  exact withShared_placed (w := w) s ⟨s.queue, (s.bell.leave task).2⟩ task _ _ ▸ h

theorem run_pass (s : SharedQueue κ) (task : Nat) (k : κ) :
    Run (w.placed s task (.passing k))
      (w.placed ⟨s.queue, s.bell.ring.2⟩ task (.leaving (some k))) := by
  refine ReflTransGen.single (.turn ?_)
  have h := Turn.pass (w.placed s task (.passing k)) task k (by simp)
  exact withShared_placed (w := w) s ⟨s.queue, s.bell.ring.2⟩ task _ _ ▸ h

theorem run_look (s : SharedQueue κ) (task : Nat) (spared : Bool) :
    Run (w.placed s task (.looking spared))
      (if s.queue.down then w.placed s task (.leaving none)
      else
        match s.queue.take? with
        | some (k, queue) =>
          w.placed ⟨queue, s.bell⟩ task
            (if queue.waiting.isEmpty then .leaving (some k) else .passing k)
        | none => w.placed s task (.waiting spared)) := by
  refine ReflTransGen.single (.turn ?_)
  have h := Turn.look (w.placed s task (.looking spared)) task spared (by simp)
  have hqueue : (w.placed s task (.looking spared)).queue = s.queue := rfl
  simp only [look, hqueue, moved_placed] at h
  split at h
  · next hdown => rwa [if_pos hdown]
  · next hup =>
    rw [if_neg hup]
    split at h
    · next k queue htake =>
      exact withShared_placed (w := w) s ⟨queue, s.bell⟩ task _ _ ▸ h
    · exact h

theorem run_wake (s : SharedQueue κ) (task : Nat) (spared : Bool)
    (hcalled : spared = true ∨ task ∉ s.bell.waiting) :
    Run (w.placed s task (.waiting spared))
      (w.placed ⟨s.queue, s.bell.answer task⟩ task .coming) := by
  refine ReflTransGen.single (.turn ?_)
  have h := Turn.wake (w.placed s task (.waiting spared)) task spared (by simp) hcalled
  exact withShared_placed (w := w) s ⟨s.queue, s.bell.answer task⟩ task _ _ ▸ h

/-- The room when a task has attempted to get a key. -/
def attempted (w : WaitingRoom κ) (task : Nat) :
    Attempt κ × List Nat × SharedQueue κ → WaitingRoom κ
  | (result, _, s) => w.placed s task (.ofAttempt result)

theorem stage_attempted_of_ne {task other : Nat} (hne : other ≠ task)
    (result : Attempt κ × List Nat × SharedQueue κ) :
    (w.attempted task result).stage other = w.stage other :=
  stage_placed_of_ne hne _ _

/-- An attempt to get a key is a run in which nobody else moves. -/
theorem run_attempt {task : Nat} {s : SharedQueue κ} (hbell : s.bell.Sound)
    (ht : task ∉ s.bell.present) :
    Run (w.placed s task .coming) (w.attempted task (s.attempt task)) := by
  have hcome := (run_come (w := w) s task).trans (run_look _ _ _)
  cases hdown : s.queue.down with
  | true =>
    simp only [hdown, if_true] at hcome
    simpa [attempted, SharedQueue.attempt, hdown, GetStage.ofAttempt]
      using hcome.trans (run_leave _ _ none)
  | false =>
    cases htake : s.queue.take? with
    | some next =>
      obtain ⟨k, queue⟩ := next
      simp only [hdown, htake, Bool.false_eq_true, if_false] at hcome
      cases hline : queue.waiting.isEmpty with
      | true =>
        simp only [hline, if_true] at hcome
        simpa [attempted, SharedQueue.attempt, hdown, htake, hline, SharedQueue.ringIf,
          GetStage.ofAttempt] using hcome.trans (run_leave _ _ (some k))
      | false =>
        simp only [hline, Bool.false_eq_true, if_false] at hcome
        have h := (hcome.trans (run_pass _ _ k)).trans (run_leave _ _ (some k))
        simp only [hbell.leave_ring_arrive ht] at h
        simpa [attempted, SharedQueue.attempt, hdown, htake, hline, SharedQueue.ringIf,
          GetStage.ofAttempt] using h
    | none =>
      simp only [hdown, htake, Bool.false_eq_true, if_false] at hcome
      cases hspared : (s.bell.arrive task).1 with
      | false =>
        simpa [attempted, SharedQueue.attempt, hdown, htake, hspared, GetStage.ofAttempt]
          using hcome
      | true =>
        -- the ring that was kept is used up, and the task comes once more
        have hb := Bell.arrive_of_spared hspared
        have hcalled : task ∉ s.bell.called := fun hc => ht (List.mem_append_right _ hc)
        have hanswer : (s.bell.arrive task).2.answer task = (s.bell.arrive task).2 := by
          rw [hb, Bell.answer, List.erase_of_not_mem hcalled]
        have hwake := run_wake (w := w) ⟨s.queue, (s.bell.arrive task).2⟩ task _
          (Or.inl hspared)
        have hagain := (run_come (w := w)
          ⟨s.queue, (s.bell.arrive task).2.answer task⟩ task).trans (run_look _ _ _)
        simp only [hdown, htake, Bool.false_eq_true, if_false, hanswer] at hwake hagain
        have hspared' : ((s.bell.arrive task).2.arrive task).1 = false := by
          rw [hb]
          simp [Bell.arrive]
        rw [hspared'] at hagain
        simpa [attempted, SharedQueue.attempt, hdown, htake, hspared, GetStage.ofAttempt]
          using (hcome.trans hwake).trans hagain

theorem placed_eq_self {task : Nat} {stage : GetStage κ} (hstage : w.stage task = stage) :
    w.placed w.shared task stage = w := by
  simp [placed, moved, withShared, shared, ← hstage]

/-- A task that gets no key can attempt to get one. -/
theorem run_get (ha : w.Attended) (task : Nat) (hover : (w.stage task).isOver = true) :
    Run w (w.attempted task (w.shared.attempt task)) :=
  (run_attempt (s := w.shared) ha.bell (ha.not_mem_present hover)).head (.call (.get w task hover))

/-- A task that was called can try again. -/
theorem run_retry (ha : w.Attended) {task : Nat} (hstage : w.stage task = .waiting false)
    (hcalled : task ∉ w.bell.waiting) :
    Run w (w.attempted task (w.shared.retry task)) := by
  have hwake := run_wake (w := w) w.shared task false (Or.inr hcalled)
  rw [placed_eq_self hstage] at hwake
  exact hwake.trans (run_attempt (s := ⟨w.queue, w.bell.answer task⟩) (ha.bell.answer task)
    (ha.bell.not_mem_present_answer hcalled))

/-! ## Settled rooms -/

namespace Settled

/-- In a settled room a task gets no key, or has come back, or waits at the bell. -/
theorem stage_cases (h : w.Settled) (task : Nat) :
    (w.stage task).isOver = true ∨ w.stage task = .waiting false ∧ task ∈ w.bell.waiting := by
  cases hs : w.stage task with
  | out => exact Or.inl rfl
  | coming => exact absurd (.come w task hs) (h _)
  | looking spared => exact absurd (.look w task spared hs) (h _)
  | passing k => exact absurd (.pass w task k hs) (h _)
  | leaving k? => exact absurd (.leave w task k? hs) (h _)
  | waiting spared =>
    by_cases hcalled : spared = true ∨ task ∉ w.bell.waiting
    · exact absurd (.wake w task spared hs hcalled) (h _)
    · simp only [not_or, not_not, Bool.not_eq_true] at hcalled
      exact Or.inr ⟨by rw [hcalled.1], hcalled.2⟩
  | back k? => exact Or.inl rfl

theorem rings_eq (h : w.Settled) : w.rings = 0 :=
  Nat.eq_zero_of_not_pos fun hdue => h _ (.ring w hdue)

theorem alarms_eq (h : w.Settled) : w.alarms = 0 :=
  Nat.eq_zero_of_not_pos fun hdue => h _ (.ringAll w hdue)

/-- In a settled room no task is called. -/
theorem called_eq (h : w.Settled) (ha : w.Attended) : w.bell.called = [] := by
  refine List.eq_nil_iff_forall_not_mem.2 fun task hc => ?_
  rcases h.stage_cases task with hover | ⟨-, hwaiting⟩
  · exact ha.not_mem_present hover (List.mem_append_right _ hc)
  · exact List.disjoint_of_nodup_append ha.bell.nodup hwaiting hc

end Settled

/-- A room is settled when no ring is due and each task gets no key, has come back, or waits
at the bell. -/
theorem settled_iff : w.Settled ↔ w.rings = 0 ∧ w.alarms = 0 ∧ ∀ task,
    (w.stage task).isOver = true ∨ w.stage task = .waiting false ∧ task ∈ w.bell.waiting := by
  refine ⟨fun h => ⟨h.rings_eq, h.alarms_eq, h.stage_cases⟩, ?_⟩
  rintro ⟨hrings, halarms, hstages⟩ v ht
  cases ht with
  | ring hdue => omega
  | ringAll hdue => omega
  | come task hstage => simpa [hstage, GetStage.isOver] using hstages task
  | look task spared hstage => simpa [hstage, GetStage.isOver] using hstages task
  | pass task k hstage => simpa [hstage, GetStage.isOver] using hstages task
  | leave task k? hstage => simpa [hstage, GetStage.isOver] using hstages task
  | wake task spared hstage hcalled =>
    obtain ⟨hs, hw⟩ := (hstages task).resolve_left (by simp [hstage, GetStage.isOver])
    rw [hstage] at hs
    cases hs
    exact hcalled.elim (by simp) (fun hnot => hnot hw)

/-- However additions, returns of keys, gets, gets that are given up and shutdowns fall among
each other, when nothing can go on and a task still waits for a key then no key is in line
and the queue is not down. -/
theorem nothing_waits_of_settled {w : WaitingRoom κ} (h : Reachable w) (hsettled : w.Settled)
    {task : Nat} (htask : (w.stage task).isOver = false) :
    w.queue.waiting = [] ∧ w.queue.down = false := by
  have ha : w.Attended := attended_start.run h
  obtain ⟨hstage, hwaiting⟩ := (hsettled.stage_cases task).resolve_left (by simp [htask])
  have hup : w.queue.down = false := by
    by_contra hdown
    rcases ha.down (by simpa using hdown) with hdue | hall
    · simp [hsettled.alarms_eq] at hdue
    · exact hall task hwaiting false hstage
  refine ⟨?_, hup⟩
  by_contra hline
  rcases ha.due hup hline with hdue | (hkept | hcalled) | ⟨other, hheading⟩
  · simp [hsettled.rings_eq] at hdue
  · simp [ha.bell.kept hkept] at hwaiting
  · exact hcalled (hsettled.called_eq ha)
  · rcases hsettled.stage_cases other with hover | ⟨hs, -⟩
    · simp [GetStage.isHeading_of_isOver hover] at hheading
    · simp [hs, GetStage.isHeading] at hheading

/-- Two keys are added while one task waits, the task gives up, two others come and get the
keys, and one more comes. -/
def lulled : WaitingRoom String :=
  let w := start
  let w := w.attempted 1 (w.shared.attempt 1)
  let w := w.withShared (w.shared.add "arena").2
  let w := w.withShared (w.shared.add "lobby").2
  let w := w.placed (w.shared.giveUp 1).2 1 .out
  let w := w.attempted 2 (w.shared.attempt 2)
  let w := w.attempted 3 (w.shared.attempt 3)
  w.attempted 4 (w.shared.attempt 4)

theorem reachable_lulled : Reachable lulled := by
  have h1 : Run (start : WaitingRoom String) _ := run_get attended_start 1 rfl
  have h2 : Reachable _ := h1.trans (run_add _ "arena")
  have h3 : Reachable _ := h2.trans (run_add _ "lobby")
  have h4 : Reachable _ := h3.trans (run_giveUp 1 false rfl)
  have h5 : Reachable _ := h4.trans (run_get (attended_start.run h4) 2 rfl)
  have h6 : Reachable _ := h5.trans (run_get (attended_start.run h5) 3 rfl)
  exact h6.trans (run_get (attended_start.run h6) 4 rfl)

theorem settled_lulled : lulled.Settled := by
  refine settled_iff.2 ⟨rfl, rfl, fun task => ?_⟩
  rcases Nat.lt_or_ge task 5 with hlt | hge
  · exact (by decide +kernel : ∀ task < 5, (lulled.stage task).isOver = true ∨
      lulled.stage task = .waiting false ∧ task ∈ lulled.bell.waiting) task hlt
  · have hout : lulled.stage task = .out := by
      simp (disch := omega) only [lulled, stage_attempted_of_ne, stage_placed_of_ne, withShared]
      rfl
    exact Or.inl (by rw [hout]; rfl)

theorem nothing_waits_lulled :
    Reachable lulled ∧ lulled.Settled ∧ (lulled.stage 4).isOver = false ∧
      lulled.stage 3 = .back (some "lobby") ∧
      lulled.queue.waiting = [] ∧ lulled.queue.down = false := by
  have hwaits : (lulled.stage 4).isOver = false := by decide +kernel
  exact ⟨reachable_lulled, settled_lulled, hwaits, by decide +kernel,
    nothing_waits_of_settled reachable_lulled settled_lulled hwaits⟩

end WaitingRoom

end GameFleet
