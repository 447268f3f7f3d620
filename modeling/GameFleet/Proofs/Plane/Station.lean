import GameFleet.Proofs.Plane.Household

/-!
# Stations

A `Station` is a crew with the informer that follows the objects of one kind, whichever that is.
The deletions that the informer tells of call for cleanups (`Duty.after?`), which begin at some
later time (`Station.Step`). Look-ups may be answered from its cache, so the rules that the crew
is under depend on that. A station that is quiet has the objects in its cache that are stored
(`Station.Kept.find?_of_quiet`).
-/

namespace GameFleet

open Relation

/-- The cleanup that a change of an object calls for. -/
def Duty.after? : (kind : Kind) → Change kind.Obj → Option Duty
  | .gameServer, .deleted g => some (.cleanUp g)
  | .collection, .deleted c => some (.release c)
  | _, _ => none

theorem Duty.program_after? (kind : Kind) (c : Change kind.Obj) :
    (after? kind c).map Duty.program = Cleanup.after? kind c := by
  cases kind <;> cases c <;> rfl

structure Station (kind : Kind) where
  crew : Crew
  /-- How many changes of the objects can still be read. -/
  room : Nat
  informer : Informer kind.Obj
  /-- Why the informer lists the objects, while it does. -/
  errand : Option (Errand kind.Obj)
  /-- What it has listed and not taken over yet. -/
  listed : Option (List kind.Obj)
  /-- The cleanups that were called for and not begun. -/
  pending : List Duty

namespace Station

variable {kind : Kind} {rules : Objects kind.Obj → Regime} {s s' : Station kind}

/-- The objects and their informer. -/
def mirror (s : Station kind) : Mirror kind.Obj where
  shelf := { Shelf.empty with
    store := s.crew.world.stores kind
    feed := ⟨(s.crew.world.logs kind).toArray, s.room, false⟩
    informer := s.informer }
  errand := s.errand
  listed := s.listed

/-- The station when its informer has made a move and told of changes. -/
def informed (s : Station kind) (m : Mirror kind.Obj) (told : List (Change kind.Obj)) :
    Station kind :=
  { s with
    informer := m.shelf.informer
    errand := m.errand
    listed := m.listed
    pending := s.pending ++ told.filterMap (Duty.after? kind) }

theorem mirror_informed {m : Mirror kind.Obj} {told : List (Change kind.Obj)}
    (hmove : s.mirror.Move told m) : (s.informed m told).mirror = m := by
  obtain ⟨shelf, errand, listed⟩ := m
  have hshelf := hmove.shelf_eq
  simp only at hshelf
  rw [hshelf]
  rfl

/-- What may happen next, if the rules that the crew is under depend on the cache. -/
inductive Step (rules : Objects kind.Obj → Regime) : Station kind → Station kind → Prop where
  | work (s : Station kind) (crew : Crew) (hstep : Crew.Step (rules s.informer.cache) s.crew crew) :
    Step rules s { s with crew }
  | inform (s : Station kind) (m : Mirror kind.Obj) (told : List (Change kind.Obj))
    (hmove : s.mirror.Move told m) : Step rules s (s.informed m told)
  /-- A cleanup that was called for begins. -/
  | attend (s : Station kind) (before after : List Duty) (duty : Duty)
    (hpending : s.pending = before ++ duty :: after) :
    Step rules s { s with
      crew := { s.crew with tasks := s.crew.tasks ++ [⟨duty, duty.program⟩] }
      pending := before ++ after }

abbrev Run (rules : Objects kind.Obj → Regime) : Station kind → Station kind → Prop :=
  ReflTransGen (Step rules)

/-- Nothing is left to do, and the informer has read everything. -/
structure Quiet (s : Station kind) : Prop where
  tasks : s.crew.tasks = []
  pending : s.pending = []
  errand : s.errand = none
  read : ∃ cursor, s.informer.phase = .following cursor ∧
    (s.mirror.shelf.feed.read cursor).1 = .idle

/-- Logs and caches are what they should be. -/
structure Kept (s : Station kind) : Prop where
  recorded : s.crew.world.Recorded
  coherent : s.mirror.Coherent
  keyed : s.informer.cache.Keyed

theorem Kept.step (hkept : s.Kept) (hstep : Step rules s s') : s'.Kept := by
  cases hstep with
  | work crew hstep =>
    have hrecorded := hstep.recorded hkept.recorded
    refine ⟨hrecorded, ?_, hkept.keyed⟩
    exact hkept.coherent.grown rfl rfl rfl (hstep.logs kind) (hrecorded kind)
  | inform m told hmove =>
    refine ⟨hkept.recorded, ?_, hmove.keyed hkept.coherent hkept.keyed⟩
    rw [mirror_informed hmove]
    exact hkept.coherent.step hmove.step
  | attend before after duty hpending => exact ⟨hkept.recorded, hkept.coherent, hkept.keyed⟩

/-- A station whose informer has read everything and has what is stored in its cache. -/
theorem kept_of_caughtUp (hrecorded : s.crew.world.Recorded)
    (hinformer : s.informer = ⟨(s.crew.world.stores kind).objects, true,
      .following (s.crew.world.logs kind).length⟩)
    (herrand : s.errand = none) (hlisted : s.listed = none) : s.Kept := by
  have hrecords := hrecorded kind
  refine ⟨hrecorded, ⟨hrecords, fun _ cursor hphase => ?_, fun e he => ?_, fun _ hl => ?_⟩, ?_⟩
  · change s.informer.phase = .following cursor at hphase
    change Within (s.crew.world.logs kind) cursor s.informer.cache
    rw [hinformer] at hphase ⊢
    cases hphase
    exact ⟨le_rfl, fun k => ⟨_, le_rfl, le_rfl, by rw [hrecords.past_eq]; rfl⟩⟩
  · cases herrand.symm.trans he
  · cases hlisted.symm.trans hl
  · rw [hinformer]
    exact fun k a ha => hrecords.sound.key_eq ha

/-- A quiet station has those objects in its cache that are stored. -/
theorem Kept.find?_of_quiet (hkept : s.Kept) (hquiet : s.Quiet) (k : Key) :
    s.informer.cache.find? k = (s.crew.world.stores kind).get? k := by
  obtain ⟨cursor, hphase, hread⟩ := hquiet.read
  exact hkept.coherent.find?_of_idle hquiet.errand hphase hread k

end Station

end GameFleet
