import GameFleet.Plane.Sample
import GameFleet.Proofs.Plane.Serving
import GameFleet.Proofs.Port.Ledger
import GameFleet.Proofs.Port.Passes
import Mathlib.Logic.Relation

/-!
# Host ports of an estate

An `Estate` is a world with the programs that run in it. `Estate.Step` says how an estate
goes on : one of its programs makes a request, a new program begins, or one is given up. The
programs are the passes of the reconcilers, the cleanup after each instance that was
deleted, and what operators do, who create instances that have no host port yet and edit
instances without changing the host ports that they expose (`Estate.Job`).

Each program has its own account of the claims that it holds, and the pool covers the claims
of all of them with those of the world (`Estate.Settled`). This is so when the registry
begins with the instances that are stored, and it stays so (`Estate.Settled.step`). Hence no
host port is ever exposed by two instances, or twice by one, and each one is in the pool for
the instance that exposes it (`Estate.owned_of_reachable`).
-/

namespace GameFleet

open Relation

structure Estate where
  world : World
  tasks : List (Program Unit)

namespace Estate

/-- The instances that are stored. -/
def instances (e : Estate) : List GameServer := (e.world.stores .gameServer).objects.values

/-! ## Steps -/

/-- The programs that can begin at any time. -/
inductive Job : Program Unit → Prop where
  | pass (context : PassContext) (r : Reconciler) (key : Key) :
    Job (do let _ ← (r.pass context key).run)
  | cleanup (c : Collection) : Job (Cleanup.collection c)
  /-- An operator creates an instance whose exposed ports have no host port. -/
  | create (g : GameServer) (h : g.exposedHostPorts = []) :
    Job (do let _ ← Program.ask (.create .gameServer g))
  /-- An instance is edited, and keeps its host ports. -/
  | edit (retry : Retry) (key : Key) (edit : GameServer → GameServer × Bool)
    (h : ∀ g, (edit g).2 = true → (edit g).1.Resembles g) :
    Job (do let _ ← (Access.edit retry .gameServer key edit).run)
  /-- Anything that has nothing to do with host ports, such as to delete an instance. -/
  | ask (request : Request) (h : request.Idle) : Job (do let _ ← Program.ask request)

inductive Step : Estate → Estate → Prop where
  | begin (e : Estate) (job : Program Unit) (h : Job job) :
    Step e { e with tasks := e.tasks ++ [job] }
  /-- An instance that was deleted is cleaned up after, which is done once. -/
  | cleanUp (e : Estate) (before after : List GameServer) (g : GameServer)
    (h : e.world.departed = before ++ g :: after) :
    Step e ⟨{ e.world with departed := before ++ after }, e.tasks ++ [Cleanup.gameServer g]⟩
  /-- A request is served, or fails. -/
  | serve (e : Estate) (before after : List (Program Unit)) (request : Request)
    (next : request.Answer → Program Unit) (answer : request.Answer) (w : World)
    (htasks : e.tasks = before ++ .call request next :: after)
    (h : e.world.Serves request answer w) :
    Step e ⟨w, before ++ next answer :: after⟩
  /-- A program that is done goes, and any other one can be given up. -/
  | leave (e : Estate) (before after : List (Program Unit)) (task : Program Unit)
    (htasks : e.tasks = before ++ task :: after) : Step e { e with tasks := before ++ after }

abbrev Run : Estate → Estate → Prop := ReflTransGen Step

/-- Nothing runs yet, and the registry begins with the instances that are stored. Their host
ports are different and in the range. -/
structure Start (low high : Port) (shuffle : List Port → List Port) (e : Estate) : Prop where
  recorded : e.world.Recorded
  registry : Registry.ofInstances low high e.instances shuffle = .ok e.world.registry
  distinct : (e.instances.flatMap GameServer.exposedHostPorts).Nodup
  inRange : ∀ g ∈ e.instances, ∀ p ∈ g.exposedHostPorts, low ≤ p ∧ p ≤ high
  departed : e.world.departed = []
  tasks : e.tasks = []

/-- What a plane does that runs a program alone is a run of an estate that shows the plane. -/
theorem run_of_shows {e : Estate} {p : Plane} (hw : e.world.Recorded) (h : e.world.Shows p)
    {before after : List (Program Unit)} {task : Program Unit}
    (htasks : e.tasks = before ++ task :: after) :
    ∃ w, Run e ⟨w, before ++ .done () :: after⟩ ∧ w.Shows (Plane.run task p).2 := by
  induction task generalizing e p with
  | done a =>
    refine ⟨e.world, ?_, h⟩
    rw [← htasks]
  | call request next ih =>
    obtain ⟨v, hserves, hv⟩ := h.serve hw request
    let f : Estate := ⟨v, before ++ next (Plane.serve request p).1 :: after⟩
    have hstep : Step e f := .serve e before after request next _ v htasks hserves
    obtain ⟨w, hrun, hshows⟩ := @ih _ f _ (hserves.recorded hw) hv rfl
    exact ⟨w, ReflTransGen.head hstep hrun, hshows⟩

/-! ## Accounts -/

/-- A program, with what it knows of host ports. -/
abbrev Account := Program Unit × Tenant

/-- What the program knows was so, and the program keeps to its tenancy. -/
structure Sound (w : World) (a : Account) : Prop where
  seen : ∀ g ∈ a.2.seen, w.Past .gameServer g
  keeps : a.1.Keeps tenancy (fun _ _ => True) a.2

/-- The claims that the programs hold. -/
def heldBy (accounts : List Account) : Multiset (Key × Port) :=
  (accounts.map fun a => a.2.held).sum

theorem heldBy_append (as bs : List Account) : heldBy (as ++ bs) = heldBy as + heldBy bs := by
  rw [heldBy, List.map_append, List.sum_append, heldBy, heldBy]

theorem heldBy_cons (a : Account) (as : List Account) : heldBy (a :: as) = a.2.held + heldBy as :=
  rfl

/-- All claims are accounted for, and the pool covers them. -/
structure Settled (e : Estate) (accounts : List Account) : Prop where
  recorded : e.world.Recorded
  quiet : e.world.registry.Quiet
  tasks : accounts.map Prod.fst = e.tasks
  sound : ∀ a ∈ accounts, Sound e.world a
  covers : e.world.registry.pool.Covers (e.world.claims + heldBy accounts)

theorem Sound.mono {w v : World} {a : Account} (h : Sound w a)
    (hlogs : w.logs .gameServer <+: v.logs .gameServer) : Sound v a :=
  ⟨fun g hg => (h.seen g hg).mono hlogs, h.keeps⟩

/-- A program begins with the claims that it handles. -/
theorem sound_of_handles {w : World} {p : Program Unit} {held : Multiset (Key × Port)}
    {left : Unit → Multiset (Key × Port)} (h : p.Handles [] held left) :
    Sound w (p, ⟨[], held⟩) := by
  refine ⟨fun g hg => (by cases hg), ?_⟩
  have hkeeps := h ⟨[], held⟩ ⟨rfl, fun g hg => by cases hg⟩
  exact hkeeps.mono fun _ _ _ => trivial

/-- What a program returns does not matter. -/
theorem sound_discard {α : Type} {w : World} {p : Program α} {held : Multiset (Key × Port)}
    {left : α → Multiset (Key × Port)} (h : p.Handles [] held left) :
    Sound w (do let _ ← p, ⟨[], held⟩) := by
  refine ⟨fun g hg => (by cases hg), ?_⟩
  have hkeeps := h ⟨[], held⟩ ⟨rfl, fun g hg => by cases hg⟩
  exact hkeeps.bind fun _ _ _ => trivial

theorem Job.sound {w : World} {job : Program Unit} (h : Job job) : Sound w (job, ⟨[], 0⟩) := by
  cases h with
  | pass context r key => exact sound_discard (Reconciler.calm_pass context r key)
  | cleanup c => exact sound_of_handles (Cleanup.handles_collection c)
  | create g hports =>
    have hclaims : (g.claims : Multiset (Key × Port)) = 0 := by
      rw [GameServer.claims, hports]
      rfl
    exact sound_discard (Program.handles_create hclaims)
  | edit retry key edit hkeep =>
    exact sound_discard (Access.handles_editGameServer retry key edit hkeep)
  | ask request hidle => exact sound_discard (Program.handles_idle request hidle)

namespace Settled

variable {e : Estate} {accounts : List Account}

theorem begin (h : e.Settled accounts) {job : Program Unit} (hjob : Job job) :
    Settled { e with tasks := e.tasks ++ [job] } (accounts ++ [(job, ⟨[], 0⟩)]) where
  recorded := h.recorded
  quiet := h.quiet
  tasks := by rw [List.map_append, h.tasks]; rfl
  sound a ha := by
    rcases List.mem_append.1 ha with ha | ha
    · exact h.sound a ha
    · rw [List.mem_singleton.1 ha]
      exact hjob.sound
  covers := by
    rw [heldBy_append, heldBy_cons]
    simpa [heldBy] using h.covers

theorem cleanUp (h : e.Settled accounts) {before after : List GameServer} {g : GameServer}
    (hdeparted : e.world.departed = before ++ g :: after) :
    Settled ⟨{ e.world with departed := before ++ after }, e.tasks ++ [Cleanup.gameServer g]⟩
      (accounts ++ [(Cleanup.gameServer g, ⟨[], g.claims⟩)]) where
  recorded := h.recorded
  quiet := h.quiet
  tasks := by rw [List.map_append, h.tasks]; rfl
  sound a ha := by
    rcases List.mem_append.1 ha with ha | ha
    · exact (h.sound a ha).mono (List.prefix_refl _)
    · rw [List.mem_singleton.1 ha]
      exact sound_of_handles (Cleanup.handles_gameServer g)
  covers := by
    have hcovers := h.covers
    simp only [World.claims, hdeparted, List.flatMap_append, List.flatMap_cons,
      ← Multiset.coe_add] at hcovers
    simp only [World.claims, List.flatMap_append, ← Multiset.coe_add, heldBy_append, heldBy_cons]
    convert hcovers using 1
    simp only [heldBy, List.map_nil, List.sum_nil]
    ac_rfl

theorem leave (h : e.Settled accounts) {before after : List (Program Unit)} {task : Program Unit}
    (htasks : e.tasks = before ++ task :: after) :
    ∃ fewer, Settled { e with tasks := before ++ after } fewer := by
  obtain ⟨as, rest, rfl, rfl, hrest⟩ := List.map_eq_append_iff.1 (h.tasks.trans htasks)
  obtain ⟨a, bs, rfl, rfl, rfl⟩ := List.map_eq_cons_iff.1 hrest
  refine ⟨as ++ bs, h.recorded, h.quiet, List.map_append, fun b hb => ?_, h.covers.mono ?_⟩
  · refine h.sound b ?_
    rcases List.mem_append.1 hb with hb | hb
    · exact List.mem_append_left _ hb
    · exact List.mem_append_right _ (List.mem_cons_of_mem _ hb)
  · rw [heldBy_append, heldBy_append, heldBy_cons]
    refine add_le_add le_rfl (add_le_add le_rfl ?_)
    exact Multiset.le_add_left _ _

/-- The account of a program goes on with the program. -/
theorem serve (h : e.Settled accounts) {before after : List (Program Unit)} {request : Request}
    {next : request.Answer → Program Unit} {answer : request.Answer} {w : World}
    (htasks : e.tasks = before ++ .call request next :: after)
    (hserves : e.world.Serves request answer w) :
    ∃ others, Settled ⟨w, before ++ next answer :: after⟩ others := by
  obtain ⟨as, rest, rfl, rfl, hrest⟩ := List.map_eq_append_iff.1 (h.tasks.trans htasks)
  obtain ⟨⟨task, t⟩, bs, rfl, rfl, rfl⟩ := List.map_eq_cons_iff.1 hrest
  have hsound := h.sound (.call request next, t) (List.mem_append_right _ List.mem_cons_self)
  have hlogs := hserves.logs .gameServer
  have hcovers := h.covers
  -- To the program that is served, what all the others hold is one sum.
  rw [heldBy_append, heldBy_cons, add_left_comm (heldBy as), ← add_assoc] at hcovers
  obtain ⟨hquiet, hcovers⟩ :=
    hserves.covers h.recorded h.quiet hsound.keeps.1 hsound.seen hcovers
  refine ⟨as ++ (next answer, t.after request answer) :: bs, hserves.recorded h.recorded, hquiet,
    ?_, fun b hb => ?_, ?_⟩
  · rw [List.map_append, List.map_cons]
  · rcases List.mem_append.1 hb with hb | hb
    · exact (h.sound b (List.mem_append_left _ hb)).mono hlogs
    rcases List.mem_cons.1 hb with rfl | hb
    · refine ⟨fun g hg => ?_, hsound.keeps.2 answer _ rfl⟩
      rcases List.mem_append.1 hg with hg | hg
      · exact (hsound.seen g hg).mono hlogs
      · exact hserves.past_shown h.recorded g hg
    · exact (h.sound b (List.mem_append_right _ (List.mem_cons_of_mem _ hb))).mono hlogs
  · rwa [heldBy_append, heldBy_cons, add_left_comm (heldBy as), ← add_assoc]

theorem step {f : Estate} (h : e.Settled accounts) (hstep : Step e f) :
    ∃ others, f.Settled others := by
  cases hstep with
  | begin job hjob => exact ⟨_, h.begin hjob⟩
  | cleanUp before after g hdeparted => exact ⟨_, h.cleanUp hdeparted⟩
  | serve before after request next answer w htasks hserves => exact h.serve htasks hserves
  | leave before after task htasks => exact h.leave htasks

theorem run {f : Estate} (h : e.Settled accounts) (hrun : Run e f) :
    ∃ others, f.Settled others := by
  induction hrun with
  | refl => exact ⟨accounts, h⟩
  | tail _ hstep ih =>
    obtain ⟨others, hothers⟩ := ih
    exact hothers.step hstep

end Settled

/-- The registry records the instances that it begins with. -/
theorem Start.settled {low high : Port} {shuffle : List Port → List Port} {e : Estate}
    (h : e.Start low high shuffle) : e.Settled [] := by
  obtain ⟨hquiet, hheld⟩ := Registry.holder?_ofInstances h.registry h.distinct h.inRange
  have hclaims : e.world.claims + heldBy [] =
      (e.instances.flatMap GameServer.claims : List (Key × Port)) := by
    rw [World.claims, h.departed, heldBy]
    simp [Store.claims, instances]
  refine ⟨h.recorded, hquiet, h.tasks.symm, fun a ha => (by cases ha), ?_⟩
  rw [hclaims]
  refine ⟨?_, fun c hc => hheld c (Multiset.mem_coe.1 hc)⟩
  rw [Multiset.map_coe, Multiset.coe_nodup, List.map_flatMap]
  simpa only [GameServer.map_snd_claims] using h.distinct

/-- However programs run beside each other and whatever fails, no host port is exposed
twice, and each one is in the pool for the instance that exposes it. -/
theorem owned_of_reachable {low high : Port} {shuffle : List Port → List Port} {start e : Estate}
    (hstart : start.Start low high shuffle) (hrun : Run start e) :
    (e.instances.flatMap GameServer.exposedHostPorts).Nodup ∧
      ∀ g ∈ e.instances, ∀ p ∈ g.exposedHostPorts,
        e.world.registry.pool.holder? p = some (Resource.key g) := by
  obtain ⟨accounts, h⟩ := hstart.settled.run hrun
  have hcovers : e.world.registry.pool.Covers
      (e.instances.flatMap GameServer.claims : List (Key × Port)) :=
    h.covers.mono ((Multiset.le_add_right _ _).trans (Multiset.le_add_right _ _))
  refine ⟨?_, fun g hg p hp => ?_⟩
  · have hnd := hcovers.nodup
    rw [Multiset.map_coe, Multiset.coe_nodup, List.map_flatMap] at hnd
    simpa only [GameServer.map_snd_claims] using hnd
  · have hclaim : (Resource.key g, p) ∈ e.instances.flatMap GameServer.claims :=
      List.mem_flatMap.2 ⟨g, hg, List.mem_map_of_mem hp⟩
    exact hcovers.held _ (Multiset.mem_coe.2 hclaim)

def birth : Birth := ⟨⟨7⟩, ⟨0, 0⟩⟩

/-- An instance that has a host port when the registry begins. -/
def settler : GameServer :=
  let g := Sample.gameServer "north"
  g.withFilled g.exposes [30000]

/-- An instance that has none. -/
def newcomer : GameServer := Sample.gameServer "south"

def newcomerKey : Key := ⟨Sample.ns, "south"⟩

def opening : Estate where
  world :=
    let stored := Store.newborn .empty birth settler
    let range : PortRange := ⟨30000, 30002, by decide, by decide⟩
    let registry : Registry := .ofPool ((Registry.draftOf range [stored]).build id)
    World.commit ⟨fun _ => .empty, fun _ => [], registry, []⟩ .gameServer (.added stored)
      (Store.commit .empty (.added stored))
  tasks := []

/-- The world when both are in it. -/
def peopled : World :=
  let s := opening.world.stores .gameServer
  let c := .added (s.newborn birth newcomer)
  opening.world.commit .gameServer c (s.commit c)

theorem start_opening : opening.Start 30000 30002 id := by
  have hports : opening.instances.flatMap GameServer.exposedHostPorts = [30000] := by
    decide +kernel
  refine ⟨?_, rfl, by rw [hports]; exact List.nodup_singleton _, fun g hg p hp => ?_, rfl, rfl⟩
  swap
  · have hmem := List.mem_flatMap.2 ⟨g, hg, hp⟩
    rw [hports, List.mem_singleton] at hmem
    subst hmem
    decide
  have hempty (registry : Registry) :
      World.Recorded ⟨fun _ => .empty, fun _ => [], registry, []⟩ := fun _ => Store.records_empty
  have hcreate : Store.create .empty birth settler =
      .ok (.added (Store.newborn .empty birth settler),
        Store.commit .empty (.added (Store.newborn .empty birth settler))) := rfl
  exact (hempty _).commit (Store.records_empty.create hcreate)

/-- Two passes over an instance have each got a host port for it. One of them writes it to the
instance, the other one is refused and gives its port back. -/
theorem owned_race :
    ∃ e, Run opening e ∧ (e.instances.map GameServer.exposedHostPorts = [[30000], [30001]] ∧
      e.world.registry.pool.holder? 30002 = none) ∧
      (e.instances.flatMap GameServer.exposedHostPorts).Nodup ∧
      ∀ g ∈ e.instances, ∀ p ∈ g.exposedHostPorts,
        e.world.registry.pool.holder? p = some (Resource.key g) := by
  have hstart : Run opening opening := ReflTransGen.refl
  have hcreated := (hstart.tail (.begin _ _ (.create newcomer (by decide)))).tail
    (.serve _ [] [] _ _ _ _ rfl (@World.Serves.create _ .gameServer birth _ _ _ rfl))
  have hbegun := (hcreated.tail (.begin _ _ (.pass default .gameServer newcomerKey))).tail
    (.begin _ _ (.pass default .gameServer newcomerKey))
  have hfound : ∀ a, (peopled.stores .gameServer).get? newcomerKey = some a →
      Resource.key a = newcomerKey ∧ peopled.Past .gameServer a := by
    rintro a ⟨⟩
    exact ⟨rfl, 2, by decide, rfl⟩
  have hlooked := (hbegun.tail (.serve _ [_] [_] _ _ _ _ rfl (.cached hfound))).tail
    (.serve _ [_, _] [] _ _ _ _ rfl (.cached hfound))
  have hnone : ∀ a ∈ ([] : List Pod), peopled.Past .pod a := fun a ha => by cases ha
  have hlisted := (hlooked.tail (.serve _ [_] [_] _ _ _ _ rfl (.cachedList hnone))).tail
    (.serve _ [_, _] [] _ _ _ _ rfl (.cachedList hnone))
  have hallocated := (hlisted.tail (.serve _ [_] [_] _ _ _ _ rfl .allocate)).tail
    (.serve _ [_, _] [] _ _ _ _ rfl .allocate)
  have hraced := (hallocated.tail (.serve _ [_] [_] _ _ _ _ rfl (.update rfl))).tail
    (.serve _ [_, _] [] (.update .gameServer _) _ (.error (.conflict "" "" 3 2)) _ rfl
      (.harmless trivial))
  have hreleased := hraced.tail (.serve _ [_, _] [] _ _ _ _ rfl .release)
  exact ⟨_, hreleased, by decide +kernel, owned_of_reachable start_opening hreleased⟩

end Estate

end GameFleet
