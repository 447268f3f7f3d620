import GameFleet.Pass.Reconciler
import GameFleet.Pass.Reports
import GameFleet.Proofs.Pass.Contract
import GameFleet.Proofs.Plane.World
import Mathlib.Logic.Relation

/-!
# Crews

A `Crew` is a world with the tasks that are at work in it. A task has a `Duty`, which says
what it is there for, and a program, which is what is left of it. `Crew.Step` says how a crew
goes on : a task begins, makes a request, or leaves. What is let happen is up to a `Regime` :
which duties begin, which answers they get, and which are given up.

A `Discipline` is a way to reason about all runs under a regime. It gives each duty a
contract, says what the programs know, and which condition of the world they keep
(`Discipline.kept_of_run`).
-/

namespace GameFleet

open Relation

/-! ## Duties -/

/-- What is to be done in a fleet. -/
inductive Duty where
  | pass (context : PassContext) (r : Reconciler) (key : Key)
  /-- A game server reports. -/
  | report (retry : Retry) (key : Key) (f : GameServerStatus → GameServerStatus)
  /-- To clean up after an instance that was deleted. -/
  | cleanUp (g : GameServer)
  /-- To clean up after a collection that was deleted. -/
  | release (c : Collection)
  /-- An operator asks for something, or whoever else is not under control. -/
  | ask (request : Request)

namespace Duty

def program : Duty → Program Unit
  | .pass context r key => do let _ ← (r.pass context key).run
  | .report retry key f => do let _ ← (Report.change retry key f).run
  | .cleanUp g => Cleanup.gameServer g
  | .release c => Cleanup.collection c
  | .ask request => do let _ ← Program.ask request

/-- The duty is a pass over this collection. -/
def IsPassOver (key : Key) (d : Duty) : Prop := ∃ context, d = .pass context .collection key

end Duty

structure Task where
  duty : Duty
  /-- What is left to do. -/
  left : Program Unit

/-! ## Steps -/

structure Crew where
  world : World
  tasks : List Task

section

variable {α : Type} {before after : List α} {a b t : α}

theorem eq_or_mem_of_mem (h : t ∈ before ++ a :: after) : t = a ∨ t ∈ before ++ after := by
  rcases List.mem_append.1 h with h | h
  · exact .inr (List.mem_append_left _ h)
  rcases List.mem_cons.1 h with h | h
  · exact .inl h
  · exact .inr (List.mem_append_right _ h)

theorem mem_of_mem_others (h : t ∈ before ++ after) : t ∈ before ++ b :: after := by
  rcases List.mem_append.1 h with h | h
  · exact List.mem_append_left _ h
  · exact List.mem_append_right _ (List.mem_cons_of_mem _ h)

/-- Whoever is there when `b` is replaced is the new one or was there before. -/
theorem mem_replaced (h : t ∈ before ++ a :: after) : t = a ∨ t ∈ before ++ b :: after :=
  (eq_or_mem_of_mem h).imp_right mem_of_mem_others

end

/-- What is let happen. -/
structure Regime where
  begins : Duty → Prop
  answers : Crew → Duty → (request : Request) → request.Answer → Prop
  /-- A task can be given up before it is done. -/
  quits : Duty → Prop

/-- Anything is let happen. -/
def Regime.anything : Regime := ⟨fun _ => True, fun _ _ _ _ => True, fun _ => True⟩

namespace Crew

variable {R : Regime} {e f : Crew}

inductive Step (R : Regime) : Crew → Crew → Prop where
  | begin (e : Crew) (duty : Duty) (h : R.begins duty) :
    Step R e { e with tasks := e.tasks ++ [⟨duty, duty.program⟩] }
  /-- A request is served, or fails. -/
  | serve (e : Crew) (before after : List Task) (duty : Duty) (request : Request)
    (next : request.Answer → Program Unit) (answer : request.Answer) (w : World)
    (htasks : e.tasks = before ++ ⟨duty, .call request next⟩ :: after)
    (h : e.world.Serves request answer w) (hanswers : R.answers e duty request answer) :
    Step R e ⟨w, before ++ ⟨duty, next answer⟩ :: after⟩
  /-- A task leaves that is done or is given up. -/
  | leave (e : Crew) (before after : List Task) (task : Task)
    (htasks : e.tasks = before ++ task :: after)
    (h : task.left = .done () ∨ R.quits task.duty) : Step R e { e with tasks := before ++ after }

abbrev Run (R : Regime) : Crew → Crew → Prop := ReflTransGen (Step R)

/-- What one regime lets happen, another one does that lets more happen. -/
theorem Step.mono {R' : Regime} (h : Step R e f) (hbegins : ∀ d, R.begins d → R'.begins d)
    (hanswers : ∀ e d request answer, R.answers e d request answer → R'.answers e d request answer)
    (hquits : ∀ d, R.quits d → R'.quits d) : Step R' e f := by
  cases h with
  | begin duty h => exact .begin e duty (hbegins duty h)
  | serve before after duty request next answer w htasks h hlet =>
    exact .serve e before after duty request next answer w htasks h (hanswers _ _ _ _ hlet)
  | leave before after task htasks hleft =>
    exact .leave e before after task htasks (hleft.imp_right (hquits _))

theorem Step.anything (h : Step R e f) : Step .anything e f :=
  h.mono (fun _ _ => trivial) (fun _ _ _ _ _ => trivial) fun _ _ => trivial

theorem Step.recorded (h : Step R e f) (he : e.world.Recorded) : f.world.Recorded := by
  cases h with
  | begin duty h => exact he
  | serve before after duty request next answer w htasks h => exact h.recorded he
  | leave before after task htasks => exact he

theorem Step.logs (h : Step R e f) (kind : Kind) : e.world.logs kind <+: f.world.logs kind := by
  cases h with
  | begin duty h => exact List.prefix_refl _
  | serve before after duty request next answer w htasks h => exact h.logs kind
  | leave before after task htasks => exact List.prefix_refl _

end Crew

/-! ## Disciplines -/

/-- What is kept under a regime, and what the programs know that keep it. -/
structure Discipline (R : Regime) where
  /-- What programs know. -/
  Knowledge : Type
  contract : Duty → Contract Knowledge
  /-- What a program knows is so. -/
  sound : World → Duty → Knowledge → Prop
  holds : World → Prop
  begins : ∀ {w duty}, holds w → R.begins duty →
    ∃ s, sound w duty s ∧ duty.program.Keeps (contract duty) (fun _ _ => True) s
  served : ∀ {e v duty s request answer}, holds e.world → sound e.world duty s →
    (contract duty).may s request → e.world.Serves request answer v →
    R.answers e duty request answer →
    holds v ∧ ∃ t, (contract duty).next s request answer t ∧ sound v duty t
  /-- What a program knows stays so when another one is served. -/
  others : ∀ {w v duty s request answer}, holds w → w.Serves request answer v →
    sound w duty s → sound v duty s

namespace Discipline

variable {R : Regime} (D : Discipline R) {e f : Crew}

/-- The task keeps to its contract. -/
def Follows (w : World) (t : Task) : Prop :=
  ∃ s, D.sound w t.duty s ∧ t.left.Keeps (D.contract t.duty) (fun _ _ => True) s

structure Kept (e : Crew) : Prop where
  holds : D.holds e.world
  tasks : ∀ t ∈ e.tasks, D.Follows e.world t

variable {D}

theorem Kept.step (h : D.Kept e) (hstep : Crew.Step R e f) : D.Kept f := by
  cases hstep with
  | begin duty hbegins =>
    refine ⟨h.holds, fun t ht => ?_⟩
    rcases List.mem_append.1 ht with ht | ht
    · exact h.tasks t ht
    · rw [List.mem_singleton.1 ht]
      exact D.begins h.holds hbegins
  | serve before after duty request next answer w htasks hserves hanswers =>
    have hmem : ⟨duty, .call request next⟩ ∈ e.tasks := by simp [htasks]
    obtain ⟨s, hsound, hmay, hnext⟩ := h.tasks _ hmem
    obtain ⟨hholds, s', hs', hsound'⟩ := D.served h.holds hsound hmay hserves hanswers
    refine ⟨hholds, fun t ht => ?_⟩
    rcases mem_replaced ht with rfl | ht
    · exact ⟨s', hsound', hnext answer s' hs'⟩
    · obtain ⟨u, hu, hkeeps⟩ := h.tasks t (htasks ▸ ht)
      exact ⟨u, D.others h.holds hserves hu, hkeeps⟩
  | leave before after task htasks =>
    exact ⟨h.holds, fun t ht => h.tasks t (htasks ▸ mem_of_mem_others ht)⟩

theorem Kept.run (h : D.Kept e) (hrun : Crew.Run R e f) : D.Kept f := by
  induction hrun with
  | refl => exact h
  | tail _ hstep ih => exact ih.step hstep

end Discipline

end GameFleet
