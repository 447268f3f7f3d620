import GameFleet.Proofs.Pass.Alone
import GameFleet.Proofs.Plane.Abreast
import GameFleet.Proofs.Port.Balance
import GameFleet.Proofs.Port.Estate

/-!
# Host ports of a manor

A `Manor` is an estate with the informer that follows the instances, and with the cleanups that
were called for and not begun yet. An instance that was deleted is cleaned up after when the
informer has told of it, and its host ports are given back as the informer has told them
(`Manor.Step`).

So it matters what the informer tells. When it lists the instances only after it has read of all
deletions, each instance that goes is told once, as it was deleted, and a manor in which nothing is
left to do has exactly those host ports taken that its instances expose
(`Manor.taken_iff_of_run`). A list in place of a deletion that was missed tells what the cache had
of the instance : a host port that it was given since then is never given back
(`Manor.lost_newcomer`).
-/

namespace GameFleet

open Relation

structure Manor where
  estate : Estate
  /-- How many changes of instances can still be read. -/
  room : Nat
  informer : Informer GameServer
  /-- Why the informer lists the instances, while it does. -/
  errand : Option (Errand GameServer)
  /-- What it has listed and not taken over yet. -/
  listed : Option (List GameServer)
  /-- The deleted instances that no cleanup was begun for, as they were told. -/
  pending : List GameServer

namespace Manor

/-- The instances and their informer. -/
def mirror (h : Manor) : Mirror GameServer where
  shelf := { Shelf.empty with
    store := h.estate.world.stores .gameServer
    feed := ⟨(h.estate.world.logs .gameServer).toArray, h.room, false⟩
    informer := h.informer }
  errand := h.errand
  listed := h.listed

/-- The manor when its informer has made a move and told of changes. -/
def informed (h : Manor) (m : Mirror GameServer) (told : List (Change GameServer)) : Manor :=
  { h with
    informer := m.shelf.informer
    errand := m.errand
    listed := m.listed
    pending := h.pending ++ told.flatMap Change.gone }

variable {lists : Mirror GameServer → Prop} {h h' : Manor}

theorem mirror_informed {m : Mirror GameServer} {told : List (Change GameServer)}
    (hmove : h.mirror.Move told m) : (h.informed m told).mirror = m := by
  obtain ⟨shelf, errand, listed⟩ := m
  have hshelf := hmove.shelf_eq
  simp only at hshelf
  rw [hshelf]
  rfl

/-! ## Steps -/

/-- What may happen next, if the informer lists the instances only when `lists` holds. -/
inductive Step (lists : Mirror GameServer → Prop) : Manor → Manor → Prop where
  | begin (h : Manor) (job : Program Unit) (hjob : Estate.Job job) :
    Step lists h { h with estate := { h.estate with tasks := h.estate.tasks ++ [job] } }
  /-- A request is served, or fails. The registry refuses no release. -/
  | serve (h : Manor) (before after : List (Program Unit)) (request : Request)
    (next : request.Answer → Program Unit) (answer : request.Answer) (w : World)
    (htasks : h.estate.tasks = before ++ .call request next :: after)
    (hserves : h.estate.world.Serves request answer w) (hrefused : ¬request.Refused answer) :
    Step lists h { h with estate := ⟨w, before ++ next answer :: after⟩ }
  /-- A program that is done goes. -/
  | leave (h : Manor) (before after : List (Program Unit))
    (htasks : h.estate.tasks = before ++ .done () :: after) :
    Step lists h { h with estate := { h.estate with tasks := before ++ after } }
  | inform (h : Manor) (m : Mirror GameServer) (told : List (Change GameServer))
    (hmove : h.mirror.Move told m) (hlists : m = h.mirror.list → lists h.mirror) :
    Step lists h (h.informed m told)
  /-- A cleanup that was called for begins. -/
  | cleanUp (h : Manor) (before after : List GameServer) (g : GameServer)
    (hpending : h.pending = before ++ g :: after) :
    Step lists h { h with
      estate := ⟨{ h.estate.world with departed := h.estate.world.departed.erase g },
        h.estate.tasks ++ [Cleanup.gameServer g]⟩
      pending := before ++ after }

abbrev Run (lists : Mirror GameServer → Prop) : Manor → Manor → Prop := ReflTransGen (Step lists)

/-- The ports that are taken are the host ports that the stored instances expose, and each one is
taken by the instance that exposes it. -/
def Exact (w : World) : Prop :=
  ∀ p k, w.registry.pool.holder? p = some k ↔
    ∃ g, (w.stores .gameServer).get? k = some g ∧ p ∈ g.exposedHostPorts

/-- Nothing runs yet, the ports that are taken are right, and the informer has the instances in its
cache that are stored. -/
structure Start (h : Manor) : Prop where
  recorded : h.estate.world.Recorded
  quiet : h.estate.world.registry.Quiet
  exact : Exact h.estate.world
  distinct : (h.estate.instances.flatMap GameServer.exposedHostPorts).Nodup
  departed : h.estate.world.departed = []
  tasks : h.estate.tasks = []
  pending : h.pending = []
  errand : h.errand = none
  listed : h.listed = none
  phase : ∃ cursor, h.informer.phase = .following cursor ∧
    cursor ≤ (h.estate.world.logs .gameServer).length
  cache : h.informer.cache = (h.estate.world.stores .gameServer).objects
  read : h.mirror.unread = []

/-- Nothing is left to do, and the informer has read everything. -/
structure Quiescent (h : Manor) : Prop where
  tasks : h.estate.tasks = []
  pending : h.pending = []
  read : ∃ cursor, h.informer.phase = .following cursor ∧
    (h.mirror.shelf.feed.read cursor).1 = .idle

/-! ## Accounts -/

open Estate (Account Job heldBy heldBy_append heldBy_cons)

/-- What the program knows was so, and the program keeps to its tenancy, and holds nothing when it
is done. -/
structure Honest (w : World) (a : Account) : Prop where
  seen : ∀ g ∈ a.2.seen, w.Past .gameServer g
  keeps : a.1.Keeps tenancy (fun _ t => t.held = 0) a.2

theorem Honest.mono {w v : World} {a : Account} (h : Honest w a)
    (hlogs : w.logs .gameServer <+: v.logs .gameServer) : Honest v a :=
  ⟨fun g hg => (h.seen g hg).mono hlogs, h.keeps⟩

theorem honest_of_handles {w : World} {p : Program Unit} {held : Multiset (Key × Port)}
    (h : p.Handles [] held fun _ => 0) : Honest w (p, ⟨[], held⟩) := by
  refine ⟨fun g hg => (by cases hg), ?_⟩
  have hkeeps := h ⟨[], held⟩ ⟨rfl, fun g hg => by cases hg⟩
  exact hkeeps.mono fun _ _ ht => ht.held

theorem honest_discard {α : Type} {w : World} {p : Program α} {held : Multiset (Key × Port)}
    {left : α → Multiset (Key × Port)} (h : p.Handles [] held left) (hleft : ∀ a, left a = 0) :
    Honest w (do let _ ← p, ⟨[], held⟩) := by
  refine ⟨fun g hg => (by cases hg), ?_⟩
  have hkeeps := h ⟨[], held⟩ ⟨rfl, fun g hg => by cases hg⟩
  exact hkeeps.bind fun a t ht => ht.held.trans (hleft a)

theorem honest_of_job {w : World} {job : Program Unit} (h : Job job) :
    Honest w (job, ⟨[], 0⟩) := by
  cases h with
  | pass context r key =>
    exact honest_discard (Reconciler.calm_pass context r key) fun r => by cases r <;> rfl
  | cleanup c => exact honest_of_handles (Cleanup.handles_collection c)
  | create g hports =>
    have hclaims : (g.claims : Multiset (Key × Port)) = 0 := by
      rw [GameServer.claims, hports]
      rfl
    exact honest_discard (Program.handles_create hclaims) fun r => by cases r <;> rfl
  | edit retry key edit hkeep =>
    exact honest_discard (Access.handles_editGameServer retry key edit hkeep) fun _ => rfl
  | ask request hidle => exact honest_discard (Program.handles_idle request hidle) fun _ => rfl

/-! ## Order -/

/-- All claims are accounted for and balanced, and every instance that is gone and not cleaned up
after was told, or is still to be read of. -/
structure Ordered (h : Manor) (accounts : List Account) : Prop where
  recorded : h.estate.world.Recorded
  quiet : h.estate.world.registry.Quiet
  tasks : accounts.map Prod.fst = h.estate.tasks
  honest : ∀ a ∈ accounts, Honest h.estate.world a
  balances : h.estate.world.registry.pool.Balances (h.estate.world.claims + heldBy accounts)
  coherent : h.mirror.Coherent
  abreast : h.mirror.Abreast
  departed : h.estate.world.departed.Perm (h.pending ++ h.mirror.unread)

end Manor

/-- Instances that are deleted are on the log. -/
theorem World.Serves.departed {w v : World} {request : Request} {answer : request.Answer}
    (hs : w.Serves request answer v) :
    ∃ more : List (Change GameServer), v.logs .gameServer = w.logs .gameServer ++ more ∧
      v.departed = w.departed ++ more.flatMap Change.gone := by
  have hcommit (kind : Kind) (c : Change kind.Obj) (s : Store kind.Obj) :
      ∃ more : List (Change GameServer),
        (w.commit kind c s).logs .gameServer = w.logs .gameServer ++ more ∧
          (w.commit kind c s).departed = w.departed ++ more.flatMap Change.gone := by
    by_cases hkind : kind = .gameServer
    · subst hkind
      refine ⟨[c], Function.update_self Kind.gameServer _ w.logs, ?_⟩
      cases c <;> rfl
    · refine ⟨[], ?_, ?_⟩
      · rw [List.append_nil]
        exact Function.update_of_ne (Ne.symm hkind) _ _
      · cases kind with
        | gameServer => exact absurd rfl hkind
        | _ => rfl
  cases hs with
  | create h => exact hcommit _ _ _
  | update h => exact hcommit _ _ _
  | delete h => exact hcommit _ _ _
  | _ => exact ⟨[], (List.append_nil _).symm, (List.append_nil _).symm⟩

namespace Manor

open Estate (Account Job heldBy heldBy_append heldBy_cons)

variable {lists : Mirror GameServer → Prop} {h h' : Manor} {accounts : List Account}

namespace Ordered

theorem begin (hordered : h.Ordered accounts) {job : Program Unit} (hjob : Job job) :
    Ordered { h with estate := { h.estate with tasks := h.estate.tasks ++ [job] } }
      (accounts ++ [(job, ⟨[], 0⟩)]) where
  recorded := hordered.recorded
  quiet := hordered.quiet
  tasks := by rw [List.map_append, hordered.tasks]; rfl
  honest a ha := by
    rcases List.mem_append.1 ha with ha | ha
    · exact hordered.honest a ha
    · rw [List.mem_singleton.1 ha]
      exact honest_of_job hjob
  balances := by
    rw [heldBy_append, heldBy_cons]
    simpa [heldBy] using hordered.balances
  coherent := hordered.coherent
  abreast := hordered.abreast
  departed := hordered.departed

/-- A program that is done holds nothing. -/
theorem leave (hordered : h.Ordered accounts) {before after : List (Program Unit)}
    (htasks : h.estate.tasks = before ++ .done () :: after) :
    ∃ fewer, Ordered { h with estate := { h.estate with tasks := before ++ after } } fewer := by
  obtain ⟨as, rest, rfl, rfl, hrest⟩ := List.map_eq_append_iff.1 (hordered.tasks.trans htasks)
  obtain ⟨⟨task, t⟩, bs, rfl, hdone, rfl⟩ := List.map_eq_cons_iff.1 hrest
  obtain rfl : task = .done () := hdone
  have hheld : t.held = 0 :=
    (hordered.honest _ (List.mem_append_right _ List.mem_cons_self)).keeps
  refine ⟨as ++ bs, hordered.recorded, hordered.quiet, List.map_append, fun b hb => ?_, ?_,
    hordered.coherent, hordered.abreast, hordered.departed⟩
  · exact hordered.honest b (mem_of_mem_others hb)
  · have hbalances := hordered.balances
    rwa [heldBy_append, heldBy_cons, hheld, zero_add, ← heldBy_append] at hbalances

/-- The mirror when the world has gone on. -/
theorem mirror_grown (hordered : h.Ordered accounts) {w : World} {tasks : List (Program Unit)}
    {more : List (Change GameServer)} (hrecorded : w.Recorded)
    (hlog : w.logs .gameServer = h.estate.world.logs .gameServer ++ more) :
    (mirror { h with estate := ⟨w, tasks⟩ }).Coherent ∧
      (mirror { h with estate := ⟨w, tasks⟩ }).Abreast ∧
      (mirror { h with estate := ⟨w, tasks⟩ }).unread =
        h.mirror.unread ++ more.flatMap Change.gone := by
  refine ⟨hordered.coherent.grown rfl rfl rfl ⟨more, hlog.symm⟩ (hrecorded .gameServer), ?_⟩
  exact hordered.abreast.grown rfl rfl rfl hlog

theorem serve (hordered : h.Ordered accounts) {before after : List (Program Unit)}
    {request : Request} {next : request.Answer → Program Unit} {answer : request.Answer} {w : World}
    (htasks : h.estate.tasks = before ++ .call request next :: after)
    (hserves : h.estate.world.Serves request answer w) (hrefused : ¬request.Refused answer) :
    ∃ others, Ordered { h with estate := ⟨w, before ++ next answer :: after⟩ } others := by
  obtain ⟨as, rest, rfl, rfl, hrest⟩ := List.map_eq_append_iff.1 (hordered.tasks.trans htasks)
  obtain ⟨⟨task, t⟩, bs, rfl, hcall, rfl⟩ := List.map_eq_cons_iff.1 hrest
  obtain rfl : task = .call request next := hcall
  have hhonest := hordered.honest (.call request next, t)
    (List.mem_append_right _ List.mem_cons_self)
  have hlogs := hserves.logs .gameServer
  have hbalances := hordered.balances
  -- To the program that is served, what all the others hold is one sum.
  rw [heldBy_append, heldBy_cons, add_left_comm (heldBy as), ← add_assoc] at hbalances
  have hcovers := hserves.covers hordered.recorded hordered.quiet hhonest.keeps.1 hhonest.seen
    hbalances.toCovers
  have hbalanced := hserves.balances hordered.recorded hordered.quiet hhonest.keeps.1 hhonest.seen
    hrefused hbalances
  obtain ⟨more, hlog, hdeparted⟩ := hserves.departed
  have hrecorded := hserves.recorded hordered.recorded
  obtain ⟨hcoherent, habreast, hunread⟩ :=
    @mirror_grown _ _ hordered w (as.map Prod.fst ++ next answer :: bs.map Prod.fst) more hrecorded
      hlog
  refine ⟨as ++ (next answer, t.after request answer) :: bs, hrecorded, hcovers.1,
    ?tasks, fun b hb => ?honest, ?balances, hcoherent, habreast, ?departed⟩
  case tasks => rw [List.map_append, List.map_cons]
  case honest =>
    rcases eq_or_mem_of_mem hb with rfl | hb
    · refine ⟨fun g hg => ?_, hhonest.keeps.2 answer _ rfl⟩
      rcases List.mem_append.1 hg with hg | hg
      · exact (hhonest.seen g hg).mono hlogs
      · exact hserves.past_shown hordered.recorded g hg
    · exact (hordered.honest b (mem_of_mem_others hb)).mono hlogs
  case balances => rwa [heldBy_append, heldBy_cons, add_left_comm (heldBy as), ← add_assoc]
  case departed =>
    change w.departed.Perm _
    rw [hdeparted, hunread, ← List.append_assoc]
    exact hordered.departed.append_right _

/-- What the informer tells is not left to be read of. -/
theorem inform (hordered : h.Ordered accounts) {m : Mirror GameServer}
    {told : List (Change GameServer)} (hmove : h.mirror.Move told m)
    (hlists : m = h.mirror.list → h.mirror.unread = []) : (h.informed m told).Ordered accounts := by
  obtain ⟨habreast, htold⟩ := hordered.abreast.move hordered.coherent rfl hmove hlists
  have hmirror := mirror_informed hmove
  constructor
  case recorded => exact hordered.recorded
  case quiet => exact hordered.quiet
  case tasks => exact hordered.tasks
  case honest => exact hordered.honest
  case balances => exact hordered.balances
  case coherent =>
    rw [hmirror]
    exact hordered.coherent.step hmove.step
  case abreast => rwa [hmirror]
  case departed =>
    rw [hmirror]
    change h.estate.world.departed.Perm (h.pending ++ told.flatMap Change.gone ++ m.unread)
    rw [List.append_assoc, htold]
    exact hordered.departed

/-- A cleanup begins with the claims of an instance that is gone. -/
theorem cleanUp (hordered : h.Ordered accounts) {before after : List GameServer} {g : GameServer}
    (hpending : h.pending = before ++ g :: after) :
    Ordered { h with
      estate := ⟨{ h.estate.world with departed := h.estate.world.departed.erase g },
        h.estate.tasks ++ [Cleanup.gameServer g]⟩
      pending := before ++ after } (accounts ++ [(Cleanup.gameServer g, ⟨[], g.claims⟩)]) := by
  have hdeparted := hordered.departed
  rw [hpending] at hdeparted
  have hmem : g ∈ h.estate.world.departed := hdeparted.mem_iff.2 (by simp)
  constructor
  case recorded => exact hordered.recorded
  case quiet => exact hordered.quiet
  case tasks => rw [List.map_append, hordered.tasks]; rfl
  case honest =>
    intro a ha
    rcases List.mem_append.1 ha with ha | ha
    · exact (hordered.honest a ha).mono (List.prefix_refl _)
    · rw [List.mem_singleton.1 ha]
      exact honest_of_handles (Cleanup.handles_gameServer g)
  case balances =>
    have hclaims : h.estate.world.claims = World.claims { h.estate.world with
        departed := h.estate.world.departed.erase g } + (g.claims : Multiset (Key × Port)) := by
      have hperm := (List.perm_cons_erase hmem).flatMap_right GameServer.claims
      rw [List.flatMap_cons] at hperm
      rw [World.claims, World.claims, Multiset.coe_eq_coe.2 hperm, ← Multiset.coe_add]
      ac_rfl
    have hbalances := hordered.balances
    rw [hclaims] at hbalances
    rw [heldBy_append, heldBy_cons]
    simpa [heldBy, add_assoc, add_comm, add_left_comm] using hbalances
  case coherent => exact hordered.coherent
  case abreast => exact hordered.abreast
  case departed =>
    have hperm := (List.perm_cons_erase hmem).symm.trans hdeparted
    rw [List.append_assoc, List.cons_append] at hperm
    change (h.estate.world.departed.erase g).Perm (before ++ after ++ h.mirror.unread)
    rw [List.append_assoc]
    exact (hperm.trans List.perm_middle).cons_inv

theorem step (hordered : h.Ordered accounts) (hstep : Step (fun m => m.unread = []) h h') :
    ∃ others, h'.Ordered others := by
  cases hstep with
  | begin job hjob => exact ⟨_, hordered.begin hjob⟩
  | serve before after request next answer w htasks hserves hrefused =>
    exact hordered.serve htasks hserves hrefused
  | leave before after htasks => exact hordered.leave htasks
  | inform m told hmove hlists => exact ⟨_, hordered.inform hmove hlists⟩
  | cleanUp before after g hpending => exact ⟨_, hordered.cleanUp hpending⟩

theorem run (hordered : h.Ordered accounts) (hrun : Run (fun m => m.unread = []) h h') :
    ∃ others, h'.Ordered others := by
  induction hrun with
  | refl => exact ⟨accounts, hordered⟩
  | tail _ hstep ih =>
    obtain ⟨others, hothers⟩ := ih
    exact hothers.step hstep

end Ordered

end Manor

theorem Store.mem_claims {s : Store GameServer} (hs : s.Sound) {k : Key} {p : Port} :
    (k, p) ∈ s.claims ↔ ∃ g, s.get? k = some g ∧ p ∈ g.exposedHostPorts := by
  rw [claims, Multiset.mem_coe, List.mem_flatMap]
  constructor
  · rintro ⟨g, hg, hclaim⟩
    obtain ⟨q, hq, heq⟩ := List.mem_map.1 hclaim
    obtain ⟨⟨j, g'⟩, he, rfl⟩ := List.mem_map.1 hg
    have hget : s.get? j = some g' := Table.find?_eq_some_iff.2 he
    cases heq
    exact ⟨g', (hs.key_eq hget).symm ▸ hget, hq⟩
  · rintro ⟨g, hget, hp⟩
    refine ⟨g, List.mem_map_of_mem (f := Prod.snd) (Table.find?_eq_some_iff.1 hget), ?_⟩
    rw [GameServer.claims, hs.key_eq hget]
    exact List.mem_map_of_mem hp

namespace Manor

open Estate (Account heldBy)

variable {h : Manor} {accounts : List Account}

theorem Start.ordered (hstart : h.Start) : h.Ordered [] := by
  have hsound := (hstart.recorded .gameServer).sound
  have hclaims :
      h.estate.world.claims + heldBy [] = (h.estate.world.stores .gameServer).claims := by
    rw [World.claims, hstart.departed]
    simp [heldBy]
  obtain ⟨cursor, hphase, hcursor⟩ := hstart.phase
  have hpast := (hstart.recorded .gameServer).past_eq
  have hmirror : h.mirror.shelf.informer.phase = .following cursor := hphase
  constructor
  case recorded => exact hstart.recorded
  case quiet => exact hstart.quiet
  case tasks => exact hstart.tasks.symm
  case honest => exact fun a ha => by cases ha
  case balances =>
    rw [hclaims]
    refine ⟨⟨?_, fun c hc => ?_⟩, fun p k hp => ?_⟩
    · have hdistinct := hstart.distinct
      rw [Store.claims, Multiset.map_coe, Multiset.coe_nodup, List.map_flatMap]
      simpa only [Estate.instances, GameServer.map_snd_claims] using hdistinct
    · exact (hstart.exact c.2 c.1).2 ((Store.mem_claims hsound).1 hc)
    · exact (Store.mem_claims hsound).2 ((hstart.exact p k).1 hp)
  case coherent =>
    refine ⟨hstart.recorded .gameServer, fun _ cursor' hphase' => ?_, fun e he => ?_,
      fun listed hl => ?_⟩
    · cases hphase.symm.trans hphase'
      refine ⟨hcursor, fun k => ⟨_, hcursor, le_rfl, ?_⟩⟩
      change h.informer.cache.find? k = _
      rw [hstart.cache]
      exact congrArg (·.get? k) hpast.symm
    · exact absurd (hstart.errand.symm.trans he) (by simp)
    · exact absurd (hstart.listed.symm.trans hl) (by simp)
  case abreast =>
    refine ⟨cursor, _, hphase, hcursor, le_rfl, ?_, .of_drop ?_ _, fun e he => ?_,
      fun listed hl => ?_⟩
    · change h.informer.cache = _
      rw [hstart.cache]
      exact congrArg Store.objects hpast.symm
    · have hread := hstart.read
      rwa [Mirror.unread, hmirror] at hread
    · exact absurd (hstart.errand.symm.trans he) (by simp)
    · exact absurd (hstart.listed.symm.trans hl) (by simp)
  case departed => rw [hstart.departed, hstart.pending, hstart.read]; rfl

theorem Quiescent.unread (hquiet : h.Quiescent) : h.mirror.unread = [] := by
  obtain ⟨cursor, hphase, hread⟩ := hquiet.read
  have hlast : h.mirror.log.length ≤ cursor := Feed.tail_le_of_read_idle hread
  have hphase' : h.mirror.shelf.informer.phase = .following cursor := hphase
  rw [Mirror.unread, hphase']
  simp [List.drop_eq_nil_of_le hlast]

/-- However passes, deletions and cleanups fall among each other and however often the informer
lists the instances, the ports that are taken are exactly the host ports that the stored instances
expose, whenever nothing is left to do : if the informer lists them only when it has read of all
deletions. -/
theorem taken_iff_of_run {start : Manor} (hstart : start.Start)
    (hrun : Run (fun m => m.unread = []) start h) (hquiet : h.Quiescent) :
    Exact h.estate.world := by
  obtain ⟨accounts, hordered⟩ := hstart.ordered.run hrun
  have hsound := (hordered.recorded .gameServer).sound
  have hdeparted : h.estate.world.departed = [] := by
    have hperm := hordered.departed
    rwa [hquiet.pending, hquiet.unread, List.append_nil, List.perm_nil] at hperm
  have hnone : accounts = [] := List.map_eq_nil_iff.1 (hordered.tasks.trans hquiet.tasks)
  have hbalances := hordered.balances
  rw [hnone, World.claims, hdeparted] at hbalances
  simp only [List.flatMap_nil, Multiset.coe_nil, add_zero, heldBy, List.map_nil,
    List.sum_nil] at hbalances
  intro p k
  rw [← Store.mem_claims hsound]
  exact ⟨hbalances.claimed p k, hbalances.held (k, p)⟩

/-! ## A manor with one instance -/

/-- An instance that has no host port yet. -/
def newcomer : GameServer := Store.newborn .empty Sample.birth (Sample.gameServer "south")

def newcomerKey : Key := ⟨Sample.ns, "south"⟩

/-- The informer has the instance in its cache, and can read one change at a time. -/
def landed : Manor where
  estate := ⟨(World.blank (Sample.registry [])).changed .gameServer (.added newcomer), []⟩
  room := 1
  informer := ⟨(Store.commit .empty (.added newcomer)).objects, true, .following 1⟩
  errand := none
  listed := none
  pending := []

theorem start_landed : landed.Start where
  recorded := (World.recorded_blank _).changed (Store.admits_of_create (Store.create_eq rfl))
  quiet := Registry.quiet_ofPool _
  exact p k := by
    constructor
    · intro hp
      cases hp
    · rintro ⟨g, hg, hp⟩
      change (Store.commit .empty (.added newcomer)).get? k = some g at hg
      rw [Store.get?_commit] at hg
      split at hg
      · cases hg
        cases hp
      · cases hg
  distinct := List.nodup_nil
  departed := rfl
  tasks := rfl
  pending := rfl
  errand := rfl
  listed := rfl
  phase := ⟨1, rfl, le_rfl⟩
  cache := rfl
  read := rfl

theorem newcomer_found (a : GameServer) (h : some newcomer = some a) :
    Resource.key a = newcomerKey ∧ landed.estate.world.Past .gameServer a := by
  cases h
  exact ⟨rfl, 1, by decide, rfl⟩

/-- The manor when the instance has a host port. -/
def assigned : Manor :=
  let w := landed.estate.world
  let g := { newcomer with spec := { newcomer.spec with
    template := newcomer.spec.template.filled newcomer.awaitsHostPort [20000] } }
  let taken := { w with registry := (w.registry.allocate newcomerKey).2 }
  { landed with estate := ⟨taken.changed .gameServer
    (.updated newcomer ((w.stores .gameServer).successor newcomer g)), []⟩ }

/-- A pass gives the instance a host port, and finds that it has a pod. -/
theorem run_assigned (lists : Mirror GameServer → Prop) : Run lists landed assigned := by
  have hstart : Run lists landed landed := .refl
  have hnone {w : World} : ∀ a ∈ ([] : List Pod), w.Past .pod a := fun a ha => by cases ha
  have hlooked := ((hstart.tail (.begin _ _ (.pass default .gameServer newcomerKey))).tail
    (.serve _ [] [] _ _ _ _ rfl (.cached newcomer_found) id)).tail
    (.serve _ [] [] _ _ _ _ rfl (.cachedList hnone) id)
  exact (((hlooked.tail
    (.serve _ [] [] _ _ _ _ rfl .allocate id)).tail
    (.serve _ [] [] _ _ _ _ rfl (.update rfl) id)).tail
    (.serve _ [] [] (.create .pod _) _ (.error (.alreadyExists "" "")) _ rfl
      (.harmless trivial) id)).tail (.leave _ [] [] rfl)

/-- When the instance has a host port, another instance is made, so the informer has to
list them. Then the instance is deleted, and its host port is given back. -/
theorem taken_iff_newcomer :
    ∃ h, Run (fun m => m.unread = []) landed h ∧ (h.Quiescent ∧
      h.estate.instances.map Resource.key = [⟨Sample.ns, "north"⟩]) ∧ Exact h.estate.world := by
  have hmade := (((run_assigned fun m => m.unread = []).tail
    (.begin _ _ (.create (Sample.gameServer "north") (by decide)))).tail
    (.serve _ [] [] _ _ _ _ rfl (@World.Serves.create _ .gameServer Sample.birth _ _ _ rfl) id)).tail
    (.leave _ [] [] rfl)
  have hlisted := ((hmade.tail (.inform _ _ _ (.lag _ rfl rfl) fun _ => rfl)).tail
    (.inform _ _ _ (.list _ rfl) fun _ => rfl)).tail
    (.inform _ _ _ (.takeOver _ _ _ rfl rfl) fun _ => rfl)
  have hread := hlisted.tail (.inform _ _ _ (.read _ rfl rfl) fun _ => rfl)
  have hdeleted := ((hread.tail
    (.begin _ _ (.ask (.delete .gameServer newcomerKey) trivial))).tail
    (.serve _ [] [] _ _ _ _ rfl (.delete rfl) id)).tail (.leave _ [] [] rfl)
  have htold := hdeleted.tail (.inform _ _ _ (.read _ rfl rfl)
    fun heq => absurd heq (Mirror.read_ne_list rfl))
  have hcleaned := ((((htold.tail (.cleanUp _ [] [] _ rfl)).tail
    (.serve _ [] [] _ _ _ _ rfl .release id)).tail
    (.serve _ [] [] _ _ _ _ rfl .list id))).tail (.leave _ [] [] rfl)
  refine ⟨_, hcleaned, ⟨?quiet, by decide +kernel⟩,
    taken_iff_of_run start_landed hcleaned ?quiet⟩
  exact ⟨rfl, rfl, _, rfl, rfl⟩

/-- A pass has given a host port to the instance, and the informer has missed that. When the
instance is deleted, its cache has the instance as it was before : what it tells of the deletion
has no host port to give back, and the port is lost. -/
theorem lost_newcomer :
    ∃ h, Run (fun _ => True) landed h ∧ h.Quiescent ∧
      h.estate.world.registry.pool.holder? 20000 = some newcomerKey ∧ h.estate.instances = [] := by
  have hdeleted := (((run_assigned fun _ => True).tail
    (.begin _ _ (.ask (.delete .gameServer newcomerKey) trivial))).tail
    (.serve _ [] [] _ _ _ _ rfl (.delete rfl) id)).tail (.leave _ [] [] rfl)
  have hlisted := ((hdeleted.tail (.inform _ _ _ (.lag _ rfl rfl) fun _ => trivial)).tail
    (.inform _ _ _ (.list _ rfl) fun _ => trivial)).tail
    (.inform _ _ _ (.takeOver _ _ _ rfl rfl) fun _ => trivial)
  have hread := hlisted.tail (.inform _ _ _ (.read _ rfl rfl) fun _ => trivial)
  have hcleaned := ((((hread.tail (.cleanUp _ [] [] newcomer rfl)).tail
    (.serve _ [] [] _ _ _ _ rfl .release id)).tail
    (.serve _ [] [] _ _ _ _ rfl .list id))).tail (.leave _ [] [] rfl)
  exact ⟨_, hcleaned, ⟨rfl, rfl, _, rfl, rfl⟩, by decide +kernel, by decide +kernel⟩

end Manor

end GameFleet
