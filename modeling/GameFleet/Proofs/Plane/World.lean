import GameFleet.Plane.Sample
import GameFleet.Proofs.Store.History
import Mathlib.Data.List.Basic
import Mathlib.Logic.Function.Basic

/-!
# What programs share

A `World` is what the programs of a fleet share when they run beside each other : the
stores with their logs, the port registry, and the instances that were deleted and that no
one has cleaned up after yet. `World.Serves` says how a request may be answered, and what
the world is then. Calls of the stores and the registry may fail, and do nothing then.
Look-ups may be behind : they find what was stored at any moment.

The stores of a world stay with their logs (`World.Serves.recorded`), and what was stored
at some moment stays so (`World.Past.mono`).
-/

namespace GameFleet

structure World where
  stores : (kind : Kind) → Store kind.Obj
  /-- The changes of each store so far. -/
  logs : (kind : Kind) → List (Change kind.Obj)
  registry : Registry
  /-- The instances that were deleted, as they were then, and not cleaned up after yet. -/
  departed : List GameServer

/-- The instances that go with a change. -/
def Change.departures : (kind : Kind) → Change kind.Obj → List GameServer
  | .gameServer, .deleted g => [g]
  | _, _ => []

/-- Answers that leave everything as it is : that a request has failed, and what clocks and
sources of names say. -/
def Request.Harmless : (request : Request) → request.Answer → Prop
  | .cached _ _, .error _ => True
  | .cachedList _ _ _, .error _ => True
  | .get _ _, .error _ => True
  | .list _ _ _, .error _ => True
  | .create _ _, .error _ => True
  | .update _ _, .error _ => True
  | .delete _ _, .error _ => True
  | .allocate _, .error _ => True
  | .release _ _, .error _ => True
  | .now, _ => True
  | .suffix _, _ => True
  | .pick _ _, _ => True
  | .record _, _ => True
  | .pause _, _ => True
  | _, _ => False

namespace World

/-- The object was stored so at some moment. -/
def Past (w : World) (kind : Kind) (a : kind.Obj) : Prop :=
  ∃ n, n ≤ (w.logs kind).length ∧ (Store.past (w.logs kind) n).get? (Resource.key a) = some a

/-- The world after a change of a store. -/
def commit (w : World) (kind : Kind) (c : Change kind.Obj) (s : Store kind.Obj) : World :=
  { w with
    stores := Function.update w.stores kind s
    logs := Function.update w.logs kind (w.logs kind ++ [c])
    departed := w.departed ++ c.departures kind }

/-- How a request may be answered. -/
inductive Serves (w : World) : (request : Request) → request.Answer → World → Prop where
  | harmless {request : Request} {answer : request.Answer} (h : request.Harmless answer) :
    Serves w request answer w
  | cached {kind : Kind} {key : Key} {found : Option kind.Obj}
    (h : ∀ a, found = some a → Resource.key a = key ∧ w.Past kind a) :
    Serves w (.cached kind key) (.ok found) w
  | cachedList {kind : Kind} {ns : String} {selector : Selector} {found : List kind.Obj}
    (h : ∀ a ∈ found, w.Past kind a) : Serves w (.cachedList kind ns selector) (.ok found) w
  | get {kind : Kind} {key : Key} :
    Serves w (.get kind key) (.ok ((w.stores kind).get? key)) w
  | list {kind : Kind} {ns : String} {selector : Selector} :
    Serves w (.list kind ns selector) (.ok ((w.stores kind).objects.list (some ns) selector)) w
  | create {kind : Kind} {birth : Birth} {a : kind.Obj} {c : Change kind.Obj}
    {s : Store kind.Obj} (h : (w.stores kind).create birth a = .ok (c, s)) :
    Serves w (.create kind a) (.ok c.object) (w.commit kind c s)
  | update {kind : Kind} {a : kind.Obj} {c : Change kind.Obj} {s : Store kind.Obj}
    (h : (w.stores kind).update a = .ok (c, s)) :
    Serves w (.update kind a) (.ok c.object) (w.commit kind c s)
  | delete {kind : Kind} {key : Key} {c : Change kind.Obj} {s : Store kind.Obj}
    (h : (w.stores kind).delete key = .ok (c, s)) :
    Serves w (.delete kind key) (.ok ()) (w.commit kind c s)
  | allocate {owner : Key} :
    Serves w (.allocate owner) (w.registry.allocate owner).1
      { w with registry := (w.registry.allocate owner).2 }
  | release {owner : Key} {ports : List Port} :
    Serves w (.release owner ports) (w.registry.release owner ports).1
      { w with registry := (w.registry.release owner ports).2 }

theorem stores_commit (w : World) (kind : Kind) (c : Change kind.Obj) (s : Store kind.Obj) :
    (w.commit kind c s).stores kind = s :=
  Function.update_self _ _ _

theorem stores_commit_of_ne (w : World) {kind other : Kind} (h : other ≠ kind)
    (c : Change kind.Obj) (s : Store kind.Obj) :
    (w.commit kind c s).stores other = w.stores other :=
  Function.update_of_ne h _ _

/-! ## Logs -/

/-- Every log is the log of its store. -/
def Recorded (w : World) : Prop := ∀ kind, Store.Records (w.logs kind) (w.stores kind)

variable {w v : World} {kind : Kind}

theorem Recorded.commit (h : w.Recorded) {c : Change kind.Obj} {s : Store kind.Obj}
    (hs : Store.Records (w.logs kind ++ [c]) s) : (w.commit kind c s).Recorded := by
  intro other
  by_cases hk : other = kind
  · subst hk
    simpa [World.commit] using hs
  · simpa [World.commit, Function.update_of_ne hk] using h other

/-- Nothing was ever stored. -/
def blank (registry : Registry) : World := ⟨fun _ => .empty, fun _ => [], registry, []⟩

theorem recorded_blank (registry : Registry) : (blank registry).Recorded :=
  fun _ => Store.records_empty

theorem Serves.recorded {request : Request} {answer : request.Answer}
    (hs : Serves w request answer v) (h : w.Recorded) : v.Recorded := by
  cases hs with
  | create hw => exact h.commit ((h _).create hw)
  | update hw => exact h.commit ((h _).update hw)
  | delete hw => exact h.commit ((h _).delete hw)
  | _ => exact h

theorem logs_commit (w : World) (kind : Kind) (c : Change kind.Obj) (s : Store kind.Obj)
    (other : Kind) : w.logs other <+: (w.commit kind c s).logs other := by
  by_cases hk : other = kind
  · subst hk
    simp [World.commit]
  · simp [World.commit, Function.update_of_ne hk]

/-- Logs only grow. -/
theorem Serves.logs {request : Request} {answer : request.Answer}
    (hs : Serves w request answer v) (other : Kind) : w.logs other <+: v.logs other := by
  cases hs with
  | create hw => exact logs_commit w _ _ _ other
  | update hw => exact logs_commit w _ _ _ other
  | delete hw => exact logs_commit w _ _ _ other
  | _ => exact List.prefix_refl _

theorem Past.mono {a : kind.Obj} (h : w.Past kind a) (hlog : w.logs kind <+: v.logs kind) :
    v.Past kind a := by
  obtain ⟨n, hn, hget⟩ := h
  obtain ⟨more, hmore⟩ := hlog
  refine ⟨n, ?_, ?_⟩
  · rw [← hmore, List.length_append]
    omega
  · rw [← hmore, Store.past_append _ hn, hget]

theorem past_of_get? (h : w.Recorded) {key : Key} {a : kind.Obj}
    (ha : (w.stores kind).get? key = some a) : w.Past kind a := by
  refine ⟨(w.logs kind).length, le_rfl, ?_⟩
  rw [(h kind).past_eq, (h kind).sound.key_eq ha, ha]

/-- What is stored under the key and with the version of a past object is that object. -/
theorem eq_of_past (h : w.Recorded) {a b : kind.Obj} (ha : w.Past kind a)
    (hb : (w.stores kind).get? (Resource.key a) = some b)
    (hversion : Resource.version a = Resource.version b) : a = b := by
  obtain ⟨n, hn, hget⟩ := ha
  rw [← (h kind).past_eq] at hb
  exact (Store.unchanged_of_version_eq (h kind).legal hn le_rfl hget hb hversion).1

end World

/-! ## Samples -/

namespace Sample

/-- The key of a sample collection. -/
def arenaKey : Key := ⟨ns, "arena"⟩

def birth : Birth := ⟨⟨7⟩, ⟨0, 0⟩⟩

/-- Two host ports, some of which instances may have. -/
def registry (existing : List GameServer) : Registry :=
  .ofPool ((Registry.draftOf ⟨20000, 20001, by decide, by decide⟩ existing).build id)

end Sample

end GameFleet
