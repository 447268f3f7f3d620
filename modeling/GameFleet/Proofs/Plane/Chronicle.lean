import GameFleet.Proofs.Plane.Crew
import Mathlib.Algebra.Ring.Int.Defs

/-!
# Chronicles

A `Chronicle` is a crew in which nothing is forgotten : each task keeps a diary of what it has
asked for and was answered, also when it has left, and every request that was served is on record
as a `Chronicle.Deed`, with the world before and after it. So it can be said of a whole run what
the tasks have done in it, and on the strength of what they had read.

Every run of a crew has a chronicle (`Chronicle.exists_of_run`). What is on record is so
(`Chronicle.Faithful`), and a task that keeps a contract in which every answer is noted
(`Contract.noting`) has asked for nothing but what the contract allows
(`Chronicle.Happened.may`).
-/

namespace GameFleet

open Relation

/-! ## Exchanges -/

/-- A request with its answer. -/
structure Exchange where
  request : Request
  answer : request.Answer

/-- The request may be answered so in some world. -/
def Exchange.Possible (x : Exchange) : Prop :=
  ∃ w v : World, w.Recorded ∧ w.Serves x.request x.answer v

/-- Each of the exchanges is fair after those before it. -/
def Exchange.AllFair (fair : List Exchange → Exchange → Prop) (past : List Exchange) : Prop :=
  ∀ before x after, past = before ++ x :: after → fair before x

theorem Exchange.allFair_concat {fair : List Exchange → Exchange → Prop} {past : List Exchange}
    {x : Exchange} : AllFair fair (past ++ [x]) ↔ AllFair fair past ∧ fair past x := by
  constructor
  · intro h
    refine ⟨fun before y after hpast => ?_, h past x [] rfl⟩
    exact h before y (after ++ [x]) (by rw [hpast, List.append_assoc, List.cons_append])
  · rintro ⟨hpast, hx⟩ before y after heq
    rcases List.eq_nil_or_concat after with rfl | ⟨init, z, rfl⟩
    · obtain ⟨rfl, hxy⟩ := List.append_inj' heq rfl
      obtain rfl : x = y := by simpa using hxy
      exact hx
    · rw [List.concat_eq_append, ← List.cons_append, ← List.append_assoc] at heq
      exact hpast before y init (List.append_inj_left' heq rfl)

/-- What the objects in an answer are : stored at some moment, under the key that was asked for
if there was one. -/
def Exchange.Shown (w : World) : Exchange → Prop
  | ⟨.cached kind key, .ok (some a)⟩ => Resource.key a = key ∧ w.Past kind a
  | ⟨.get kind key, .ok (some a)⟩ => Resource.key a = key ∧ w.Past kind a
  | ⟨.cachedList kind _ _, .ok found⟩ => ∀ a ∈ found, w.Past kind a
  | _ => True

theorem Exchange.Shown.mono {w v : World} {x : Exchange} (h : x.Shown w)
    (hlogs : ∀ kind, w.logs kind <+: v.logs kind) : x.Shown v := by
  unfold Shown at h ⊢
  split
  · exact ⟨h.1, h.2.mono (hlogs _)⟩
  · exact ⟨h.1, h.2.mono (hlogs _)⟩
  · exact fun a ha => (h a ha).mono (hlogs _)
  · trivial

theorem Request.Harmless.shown {request : Request} {answer : request.Answer}
    (h : request.Harmless answer) (w : World) : Exchange.Shown w ⟨request, answer⟩ := by
  cases request with
  | cached kind key => cases answer with
    | ok found => exact h.elim
    | error e => trivial
  | get kind key => cases answer with
    | ok found => exact h.elim
    | error e => trivial
  | cachedList kind ns selector => cases answer with
    | ok found => exact h.elim
    | error e => trivial
  | _ => trivial

/-- What a request is answered with was stored at some moment. -/
theorem World.Serves.shown {w v : World} {request : Request} {answer : request.Answer}
    (h : w.Serves request answer v) (hw : w.Recorded) : Exchange.Shown w ⟨request, answer⟩ := by
  cases h with
  | @cached kind key found h =>
    cases found with
    | none => trivial
    | some a => exact h a rfl
  | cachedList h => exact h
  | @get kind key =>
    cases hget : (w.stores kind).get? key with
    | none => trivial
    | some a => exact ⟨(hw kind).sound.key_eq hget, World.past_of_get? hw hget⟩
  | harmless h => exact h.shown w
  | _ => trivial

/-- The request was answered so in a world that this one goes on from. -/
def Exchange.Earlier (w : World) (x : Exchange) : Prop :=
  ∃ u v : World, u.Recorded ∧ u.Serves x.request x.answer v ∧ ∀ kind, u.logs kind <+: w.logs kind

theorem Exchange.Earlier.mono {w v : World} {x : Exchange} (h : x.Earlier w)
    (hlogs : ∀ kind, w.logs kind <+: v.logs kind) : x.Earlier v := by
  obtain ⟨u, after, hrecorded, hserves, hearlier⟩ := h
  exact ⟨u, after, hrecorded, hserves, fun kind => (hearlier kind).trans (hlogs kind)⟩

/-- The contract of a party that notes every answer, and relies on fair ones. -/
def Contract.noting {σ : Type} (note : σ → Exchange → σ) (may : σ → Request → Prop)
    (fair : σ → Exchange → Prop) : Contract σ where
  may := may
  next s request answer t := fair s ⟨request, answer⟩ ∧ t = note s ⟨request, answer⟩

namespace Program

variable {α β : Type}

/-- The exchanges lead from a program to what is left of it. -/
inductive Leads : Program α → List Exchange → Program α → Prop where
  | nil (p : Program α) : Leads p [] p
  | cons {request : Request} {next : request.Answer → Program α} {answer : request.Answer}
    {past : List Exchange} {q : Program α} (h : Leads (next answer) past q) :
    Leads (.call request next) (⟨request, answer⟩ :: past) q

theorem Leads.concat {p : Program α} {past : List Exchange} {request : Request}
    {next : request.Answer → Program α} (h : p.Leads past (.call request next))
    (answer : request.Answer) : p.Leads (past ++ [⟨request, answer⟩]) (next answer) := by
  generalize hq : Program.call request next = q at h
  induction h with
  | nil p =>
    subst hq
    exact .cons (.nil _)
  | cons h ih => exact .cons (ih hq)

/-- There is one way only on which the answers lead. -/
theorem Leads.eq {p q q' : Program α} {past : List Exchange} (h : p.Leads past q)
    (h' : p.Leads past q') : q = q' := by
  induction h with
  | nil p =>
    cases h' with
    | nil => rfl
  | cons h ih =>
    cases h' with
    | cons h' => exact ih h'

/-- A sequence ends when its second part does, which begins where the first part has ended. -/
theorem Leads.exists_split {p : Program α} {f : α → Program β} {past : List Exchange} {b : β}
    (h : (p >>= f).Leads past (.done b)) :
    ∃ before after a, past = before ++ after ∧ p.Leads before (.done a) ∧
      (f a).Leads after (.done b) := by
  induction p generalizing past with
  | done a => exact ⟨[], past, a, rfl, .nil _, h⟩
  | call request next ih =>
    cases h with
    | cons h =>
      obtain ⟨before, after, a, rfl, hfirst, hsecond⟩ := ih _ h
      exact ⟨_ :: before, after, a, rfl, .cons hfirst, hsecond⟩

/-- A program that is followed by nothing that asks ends when the whole does. -/
theorem Leads.of_bind {p : Program α} {f : α → Program β} {past : List Exchange} {b : β}
    (hf : ∀ a, ∃ b, f a = .done b) (h : (p >>= f).Leads past (.done b)) :
    ∃ a, p.Leads past (.done a) ∧ f a = .done b := by
  obtain ⟨before, after, a, rfl, hfirst, hsecond⟩ := h.exists_split
  obtain ⟨b', hb⟩ := hf a
  rw [hb] at hsecond
  cases hsecond with
  | nil => exact ⟨a, by rwa [List.append_nil], hb⟩

/-- A program whose value is dropped ends when the program does. -/
theorem Leads.of_discard {p : Program α} {past : List Exchange}
    (h : (do let _ ← p : Program Unit).Leads past (.done ())) :
    ∃ a, p.Leads past (.done a) := by
  obtain ⟨a, ha, -⟩ := Leads.of_bind (fun _ => ⟨(), rfl⟩) h
  exact ⟨a, ha⟩

/-- What is left of a program keeps the contract that the program keeps. -/
theorem Leads.keeps {σ : Type} {note : σ → Exchange → σ} {may : σ → Request → Prop}
    {fair : σ → Exchange → Prop} {post : α → σ → Prop} {p q : Program α} {s : σ}
    {past : List Exchange} (h : p.Leads past q)
    (hp : p.Keeps (Contract.noting note may fair) post s)
    (hfair : Exchange.AllFair (fun before x => fair (before.foldl note s) x) past) :
    q.Keeps (Contract.noting note may fair) post (past.foldl note s) := by
  induction h generalizing s with
  | nil p => exact hp
  | cons h ih =>
    refine ih (hp.2 _ _ ⟨hfair [] _ _ rfl, rfl⟩) fun before x after hpast => ?_
    exact hfair (_ :: before) x after (by rw [hpast, List.cons_append])

end Program

/-! ## Chronicles -/

/-- A task with what it has asked for so far. -/
structure Diary where
  task : Task
  past : List Exchange

/-- A request that was served. -/
structure Chronicle.Deed where
  duty : Duty
  /-- What the task had asked for before. -/
  past : List Exchange
  exchange : Exchange
  before : World
  after : World

structure Chronicle where
  world : World
  diaries : List Diary
  /-- The diaries of those who have left. -/
  closed : List Diary
  /-- The deeds so far, the first one first. -/
  deeds : List Chronicle.Deed

namespace Chronicle

variable {R : Regime} {b c : Chronicle} {d : Deed}

/-- A chronicle that begins, with no one at work. -/
def opening (w : World) : Chronicle := ⟨w, [], [], []⟩

/-- The crew that the chronicle is of. -/
def crew (c : Chronicle) : Crew := ⟨c.world, c.diaries.map Diary.task⟩

/-- The steps of a crew, on record. -/
inductive Step (R : Regime) : Chronicle → Chronicle → Prop where
  | begin (c : Chronicle) (duty : Duty) (h : R.begins duty) :
    Step R c { c with diaries := c.diaries ++ [⟨⟨duty, duty.program⟩, []⟩] }
  | serve (c : Chronicle) (before after : List Diary) (duty : Duty) (past : List Exchange)
    (request : Request) (next : request.Answer → Program Unit) (answer : request.Answer)
    (w : World) (hdiaries : c.diaries = before ++ ⟨⟨duty, .call request next⟩, past⟩ :: after)
    (h : c.world.Serves request answer w) (hanswers : R.answers c.crew duty request answer) :
    Step R c { c with
      world := w
      diaries := before ++ ⟨⟨duty, next answer⟩, past ++ [⟨request, answer⟩]⟩ :: after
      deeds := c.deeds ++ [⟨duty, past, ⟨request, answer⟩, c.world, w⟩] }
  | leave (c : Chronicle) (before after : List Diary) (x : Diary)
    (hdiaries : c.diaries = before ++ x :: after)
    (h : x.task.left = .done () ∨ R.quits x.task.duty) :
    Step R c { c with diaries := before ++ after, closed := c.closed ++ [x] }

abbrev Run (R : Regime) : Chronicle → Chronicle → Prop := ReflTransGen (Step R)

theorem Step.crew (h : Step R b c) : Crew.Step R b.crew c.crew := by
  cases h with
  | begin duty h =>
    simp only [Chronicle.crew, List.map_append, List.map_cons, List.map_nil]
    exact .begin b.crew duty h
  | serve before after duty past request next answer w hdiaries h hanswers =>
    have htasks : b.crew.tasks = before.map Diary.task ++
        ⟨duty, .call request next⟩ :: after.map Diary.task := by
      simp [Chronicle.crew, hdiaries]
    simp only [Chronicle.crew, List.map_append, List.map_cons]
    exact .serve b.crew _ _ duty request next answer w htasks h hanswers
  | leave before after x hdiaries h =>
    have htasks : b.crew.tasks = before.map Diary.task ++ x.task :: after.map Diary.task := by
      simp [Chronicle.crew, hdiaries]
    simp only [Chronicle.crew, List.map_append]
    exact .leave b.crew _ _ x.task htasks h

theorem Run.crew (h : Run R b c) : Crew.Run R b.crew c.crew := by
  induction h with
  | refl => exact .refl
  | tail _ hstep ih => exact ih.tail hstep.crew

/-- A step of the crew can be put on record. -/
theorem exists_of_step {f : Crew} (h : Crew.Step R c.crew f) :
    ∃ c', Step R c c' ∧ c'.crew = f := by
  generalize he : c.crew = e at h
  cases h with
  | begin duty h =>
    subst he
    refine ⟨_, .begin c duty h, ?_⟩
    simp [Chronicle.crew]
  | serve before after duty request next answer w htasks h hanswers =>
    subst he
    obtain ⟨before', rest, hdiaries, rfl, hrest⟩ := List.map_eq_append_iff.1 htasks
    obtain ⟨⟨task, past⟩, after', rfl, rfl, rfl⟩ := List.map_eq_cons_iff.1 hrest
    refine ⟨_, .serve c before' after' duty past request next answer w hdiaries h hanswers, ?_⟩
    simp [Chronicle.crew]
  | leave before after task htasks h =>
    subst he
    obtain ⟨before', rest, hdiaries, rfl, hrest⟩ := List.map_eq_append_iff.1 htasks
    obtain ⟨x, after', rfl, rfl, rfl⟩ := List.map_eq_cons_iff.1 hrest
    refine ⟨_, .leave c before' after' x hdiaries h, ?_⟩
    simp [Chronicle.crew]

/-- Every run of a crew has a chronicle. -/
theorem exists_of_run {w : World} {f : Crew} (h : Crew.Run R ⟨w, []⟩ f) :
    ∃ c, Run R (opening w) c ∧ c.crew = f := by
  induction h with
  | refl => exact ⟨_, .refl, rfl⟩
  | tail _ hstep ih =>
    obtain ⟨c, hrun, rfl⟩ := ih
    obtain ⟨c', hstep', rfl⟩ := exists_of_step hstep
    exact ⟨c', hrun.tail hstep', rfl⟩

/-! ## What is on record -/

theorem Step.deeds (h : Step R b c) : b.deeds ⊆ c.deeds := by
  cases h with
  | begin duty h => exact fun _ hd => hd
  | serve before after duty past request next answer w hdiaries h hanswers =>
    exact List.subset_append_left _ _
  | leave before after x hdiaries h => exact fun _ hd => hd

/-- All exchanges of a duty are on record. -/
def Attested (deeds : List Deed) (duty : Duty) (past : List Exchange) : Prop :=
  Exchange.AllFair (fun before x => ∃ d ∈ deeds, d.duty = duty ∧ d.past = before ∧
    d.exchange = x) past

variable {deeds more : List Deed} {duty : Duty} {past : List Exchange} {x : Diary}

theorem Attested.mono (h : Attested deeds duty past) (hmore : deeds ⊆ more) :
    Attested more duty past := by
  intro before x after hpast
  obtain ⟨d, hd, hduty⟩ := h before x after hpast
  exact ⟨d, hmore hd, hduty⟩

/-- What a diary says is so. -/
structure Genuine (deeds : List Deed) (x : Diary) : Prop where
  leads : x.task.duty.program.Leads x.past x.task.left
  attested : Attested deeds x.task.duty x.past

theorem Genuine.mono (h : Genuine deeds x) (hmore : deeds ⊆ more) : Genuine more x :=
  ⟨h.leads, h.attested.mono hmore⟩

/-- What is on record of a deed is so. -/
structure Happened (deeds : List Deed) (d : Deed) : Prop where
  leads : ∃ next, d.duty.program.Leads d.past (.call d.exchange.request next)
  attested : Attested deeds d.duty d.past
  shown : ∀ x ∈ d.past, x.Shown d.before
  recorded : d.before.Recorded
  serves : d.before.Serves d.exchange.request d.exchange.answer d.after

theorem Happened.mono (h : Happened deeds d) (hmore : deeds ⊆ more) : Happened more d :=
  ⟨h.leads, h.attested.mono hmore, h.shown, h.recorded, h.serves⟩

/-- What a chronicle says is so. -/
structure Faithful (R : Regime) (c : Chronicle) : Prop where
  recorded : c.world.Recorded
  diaries : ∀ x ∈ c.diaries, Genuine c.deeds x ∧ ∀ y ∈ x.past, y.Shown c.world
  closed : ∀ x ∈ c.closed, Genuine c.deeds x ∧ (x.task.left = .done () ∨ R.quits x.task.duty)
  deeds : ∀ d ∈ c.deeds, Happened c.deeds d

theorem faithful_opening {w : World} (hw : w.Recorded) : (opening w).Faithful R :=
  ⟨hw, fun x hx => (by cases hx), fun x hx => (by cases hx), fun d hd => (by cases hd)⟩

theorem Faithful.step (h : b.Faithful R) (hstep : Step R b c) : c.Faithful R := by
  have hdeeds := hstep.deeds
  cases hstep with
  | begin duty hbegins =>
    refine ⟨h.recorded, fun x hx => ?_, h.closed, h.deeds⟩
    rcases List.mem_append.1 hx with hx | hx
    · exact h.diaries x hx
    · rw [List.mem_singleton.1 hx]
      exact ⟨⟨.nil _, fun before x after hpast => by simp at hpast⟩, fun y hy => by cases hy⟩
  | serve before after duty past request next answer w hdiaries hserves hanswers =>
    obtain ⟨hgenuine, hshown⟩ := h.diaries ⟨⟨duty, .call request next⟩, past⟩ (by simp [hdiaries])
    refine ⟨hserves.recorded h.recorded, fun x hx => ?_, fun x hx => ?_, fun d hd => ?_⟩
    · rcases mem_replaced hx with rfl | hx
      · refine ⟨⟨hgenuine.leads.concat answer, Exchange.allFair_concat.2 ⟨?_, ?_⟩⟩, fun y hy => ?_⟩
        · exact hgenuine.attested.mono hdeeds
        · exact ⟨_, List.mem_append_right _ List.mem_cons_self, rfl, rfl, rfl⟩
        · rcases List.mem_append.1 hy with hy | hy
          · exact (hshown y hy).mono hserves.logs
          · rw [List.mem_singleton.1 hy]
            exact (hserves.shown h.recorded).mono hserves.logs
      · obtain ⟨hx', hshown'⟩ := h.diaries x (hdiaries ▸ hx)
        exact ⟨hx'.mono hdeeds, fun y hy => (hshown' y hy).mono hserves.logs⟩
    · exact ⟨(h.closed x hx).1.mono hdeeds, (h.closed x hx).2⟩
    · rcases List.mem_append.1 hd with hd | hd
      · exact (h.deeds d hd).mono hdeeds
      · rw [List.mem_singleton.1 hd]
        exact ⟨⟨next, hgenuine.leads⟩, hgenuine.attested.mono hdeeds, hshown, h.recorded, hserves⟩
  | leave before after x hdiaries hleft =>
    refine ⟨h.recorded, fun y hy => ?_, fun y hy => ?_, h.deeds⟩
    · exact h.diaries y (hdiaries ▸ mem_of_mem_others hy)
    · rcases List.mem_append.1 hy with hy | hy
      · exact h.closed y hy
      · rw [List.mem_singleton.1 hy]
        exact ⟨(h.diaries x (by simp [hdiaries])).1, hleft⟩

theorem Faithful.run (h : b.Faithful R) (hrun : Run R b c) : c.Faithful R := by
  induction hrun with
  | refl => exact h
  | tail _ hstep ih => exact ih.step hstep

theorem faithful_of_run {w : World} (hw : w.Recorded) (hrun : Run R (opening w) c) :
    c.Faithful R :=
  (faithful_opening hw).run hrun

/-- What a task has asked for before was served in an earlier world. -/
theorem earlier_of_run {w : World} (hw : w.Recorded) (hrun : Run R (opening w) c) :
    (∀ x ∈ c.diaries, ∀ y ∈ x.past, y.Earlier c.world) ∧
      ∀ d ∈ c.deeds, ∀ y ∈ d.past, y.Earlier d.before := by
  induction hrun with
  | refl => exact ⟨fun x hx => (by cases hx), fun d hd => (by cases hd)⟩
  | @tail b c hrun hstep ih =>
    obtain ⟨hdiaries, hdeeds⟩ := ih
    cases hstep with
    | begin duty hbegins =>
      refine ⟨fun x hx => ?_, hdeeds⟩
      rcases List.mem_append.1 hx with hx | hx
      · exact hdiaries x hx
      · rw [List.mem_singleton.1 hx]
        exact fun y hy => by cases hy
    | serve before after duty past request next answer v heq hserves hanswers =>
      have hrecorded := (faithful_of_run hw hrun).recorded
      have hpast := hdiaries ⟨⟨duty, .call request next⟩, past⟩ (by simp [heq])
      refine ⟨fun x hx y hy => ?_, fun d hd => ?_⟩
      · rcases mem_replaced hx with rfl | hx
        · rcases List.mem_append.1 hy with hy | hy
          · exact (hpast y hy).mono hserves.logs
          · rw [List.mem_singleton.1 hy]
            exact ⟨b.world, v, hrecorded, hserves, hserves.logs⟩
        · exact (hdiaries x (heq ▸ hx) y hy).mono hserves.logs
      · rcases List.mem_append.1 hd with hd | hd
        · exact hdeeds d hd
        · rw [List.mem_singleton.1 hd]
          exact hpast
    | leave before after x heq hleft =>
      exact ⟨fun y hy => hdiaries y (heq ▸ mem_of_mem_others hy), hdeeds⟩

/-! ## Sums -/

/-- What is summed up over the deeds can be summed up over the diaries, if each deed adds to its
diary what it counts for. -/
theorem sum_deeds {w : World} {weight : Deed → Int} {value : Duty → List Exchange → Int}
    (hrun : Run R (opening w) c) (hnil : ∀ duty, value duty [] = 0)
    (hconcat : ∀ d ∈ c.deeds,
      value d.duty (d.past ++ [d.exchange]) = value d.duty d.past + weight d) :
    (c.deeds.map weight).sum =
      ((c.diaries ++ c.closed).map fun x => value x.task.duty x.past).sum := by
  induction hrun with
  | refl => rfl
  | @tail b c _ hstep ih =>
    have hsum := ih fun d hd => hconcat d (hstep.deeds hd)
    cases hstep with
    | begin duty h =>
      simp only [List.map_append, List.sum_append, List.map_cons, List.sum_cons, List.map_nil,
        List.sum_nil, hnil] at hsum ⊢
      omega
    | serve before after duty past request next answer w hdiaries h hanswers =>
      have hadds := hconcat _ (List.mem_append_right _ List.mem_cons_self)
      simp only [hdiaries, List.map_append, List.sum_append, List.map_cons, List.sum_cons,
        List.map_nil, List.sum_nil] at hsum hadds ⊢
      omega
    | leave before after x hdiaries h =>
      simp only [hdiaries, List.map_append, List.sum_append, List.map_cons, List.sum_cons,
        List.map_nil, List.sum_nil] at hsum ⊢
      omega

/-! ## Contracts -/

section

variable {σ : Type} {note : σ → Exchange → σ} {allows : σ → Request → Prop}
  {fair : σ → Exchange → Prop} {post : Unit → σ → Prop} {s : σ}

/-- The answers that a duty gets are fair to it. -/
def FairTo (deeds : List Deed) (fair : List Exchange → Exchange → Prop) (duty : Duty) : Prop :=
  ∀ d ∈ deeds, d.duty = duty → fair d.past d.exchange

theorem Attested.allFair {fair : List Exchange → Exchange → Prop} (h : Attested deeds duty past)
    (hfair : FairTo deeds fair duty) : Exchange.AllFair fair past := by
  intro before x after hpast
  obtain ⟨d, hd, hduty, rfl, rfl⟩ := h before x after hpast
  exact hfair d hd hduty

/-- A task that keeps a contract has asked only for what it may. -/
theorem Happened.may (h : Happened deeds d)
    (hkeeps : d.duty.program.Keeps (Contract.noting note allows fair) post s)
    (hfair : FairTo deeds (fun past x => fair (past.foldl note s) x) d.duty) :
    allows (d.past.foldl note s) d.exchange.request := by
  obtain ⟨next, hleads⟩ := h.leads
  exact (hleads.keeps hkeeps (h.attested.allFair hfair)).1

end

theorem Faithful.possible (h : c.Faithful R) (duty : Duty) :
    FairTo c.deeds (fun _ x => x.Possible) duty :=
  fun d hd _ => ⟨_, _, (h.deeds d hd).recorded, (h.deeds d hd).serves⟩

end Chronicle

end GameFleet
