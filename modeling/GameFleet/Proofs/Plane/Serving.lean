import GameFleet.Plane.Basic
import GameFleet.Proofs.Plane.World
import GameFleet.Proofs.Table

/-!
# Planes serve requests as worlds do

A world shows a plane when it has the stores and the registry of the plane, and whatever
the plane lets programs look up was stored at some moment (`World.Shows`). How the plane
answers a request is then one of the ways in which the world may answer it, and the world
shows the plane afterwards (`World.Shows.serve`). So what is known of programs in a world
holds of programs on a plane.
-/

set_option linter.unusedSectionVars false

namespace GameFleet

/-! ## Calls that nothing disturbs -/

namespace Shelf

variable {α β : Type} [Resource α] {s : Shelf α}

theorem call_eq (h : s.disturbances = []) (m : Method) (k : Key)
    (op : Shelf α → Except StoreError β × Shelf α) : s.call m k op = op s := by
  have hsame : { s with disturbances := [] } = s := by rw [← h]
  rw [call, h]
  exact congrArg op hsame

theorem lookup_eq (h : s.lookupDisturbances = []) (m : Method) (k : Key) (read : Shelf α → β) :
    s.lookup m k read = (.ok (read s), s) := by
  have hsame : { s with lookupDisturbances := [] } = s := by rw [← h]
  rw [lookup, h]
  exact congrArg (fun s => (Except.ok (read s), s)) hsame

/-- A write shows in look-ups, or nothing of it. -/
theorem visible_write (s : Shelf α) (store : Store α) (feed : Feed (Change α)) (cached : Bool) :
    ({ s with store, feed } : Shelf α).visible cached = s.visible cached ∨
      ({ s with store, feed } : Shelf α).visible cached = store.objects := by
  unfold visible
  cases cached with
  | true => exact Or.inl rfl
  | false =>
    cases s.frozen with
    | some frozen => exact Or.inl rfl
    | none => exact Or.inr rfl

end Shelf

namespace World

/-- The world has what the plane has, and knows of all that is looked up there. -/
structure Shows (w : World) (p : Plane) : Prop where
  store : ∀ kind, (p.shelf kind).store = w.stores kind
  registry : p.registry = w.registry
  calm : ∀ kind, (p.shelf kind).disturbances = [] ∧ (p.shelf kind).lookupDisturbances = []
  visible : ∀ kind k a, ((p.shelf kind).visible p.cached).find? k = some a →
    Resource.key a = k ∧ w.Past kind a

/-- The world has a way to answer as the plane does, and shows the plane then. -/
def Follows (w : World) (p : Plane) (request : Request) : Prop :=
  ∃ v, w.Serves request (Plane.serve request p).1 v ∧ v.Shows (Plane.serve request p).2

namespace Shows

variable {w : World} {p : Plane}

/-! ## Moves of a plane -/

/-- What is not looked at can be different. -/
theorem congr (h : w.Shows p) (q : Plane) (hshelf : ∀ kind, q.shelf kind = p.shelf kind)
    (hcached : q.cached = p.cached) {registry : Registry} (hregistry : q.registry = registry) :
    Shows { w with registry } q where
  store kind := by rw [hshelf, h.store]
  registry := hregistry
  calm kind := by rw [hshelf]; exact h.calm kind
  visible kind k a ha := by
    rw [hshelf, hcached] at ha
    exact h.visible kind k a ha

/-- A write that the store has done is told to the feed, and shows in a look-up if look-ups
are answered from the store. -/
theorem commit (h : w.Shows p) (hw : w.Recorded) {kind : Kind} {c : Change kind.Obj}
    {s : Store kind.Obj} (hs : Store.Records (w.logs kind ++ [c]) s)
    (feed : Feed (Change kind.Obj)) :
    (w.commit kind c s).Shows (p.setShelf kind { p.shelf kind with store := s, feed }) := by
  have hv : (w.commit kind c s).Recorded := hw.commit hs
  have hstore : (w.commit kind c s).stores kind = s := Function.update_self _ _ _
  have hcached (t : Shelf kind.Obj) : (p.setShelf kind t).cached = p.cached := by cases kind <;> rfl
  refine ⟨fun other => ?_, ?_, fun other => ?_, fun other k a ha => ?_⟩
  · by_cases hk : other = kind
    · subst hk
      rw [Plane.shelf_setShelf, hstore]
    · rw [Plane.shelf_setShelf_of_ne _ _ hk, h.store]
      exact (Function.update_of_ne hk _ _).symm
  · have hregistry (t : Shelf kind.Obj) : (p.setShelf kind t).registry = p.registry := by
      cases kind <;> rfl
    rw [hregistry, h.registry]
    rfl
  · by_cases hk : other = kind
    · subst hk
      rw [Plane.shelf_setShelf]
      exact h.calm other
    · rw [Plane.shelf_setShelf_of_ne _ _ hk]
      exact h.calm other
  · rw [hcached] at ha
    have hlogs := logs_commit w kind c s other
    by_cases hk : other = kind
    · subst hk
      rw [Plane.shelf_setShelf] at ha
      rcases (p.shelf other).visible_write s feed p.cached with hold | hnew
      · rw [hold] at ha
        exact ⟨(h.visible other k a ha).1, (h.visible other k a ha).2.mono hlogs⟩
      · rw [hnew, ← hstore] at ha
        exact ⟨(hv other).sound.key_eq ha, past_of_get? hv ha⟩
    · rw [Plane.shelf_setShelf_of_ne _ _ hk] at ha
      exact ⟨(h.visible other k a ha).1, (h.visible other k a ha).2.mono hlogs⟩

/-- A write on a plane is committed or has failed. -/
theorem write (h : w.Shows p) (hw : w.Recorded) {kind : Kind}
    {outcome : Except StoreError (Change kind.Obj × Store kind.Obj)}
    (hs : ∀ c s, outcome = .ok (c, s) → Store.Records (w.logs kind ++ [c]) s) :
    (∃ c s, outcome = .ok (c, s) ∧ ((p.shelf kind).commit outcome).1 = .ok c.object ∧
      (w.commit kind c s).Shows (p.setShelf kind ((p.shelf kind).commit outcome).2)) ∨
    ∃ e, ((p.shelf kind).commit outcome).1 = .error e ∧
      w.Shows (p.setShelf kind ((p.shelf kind).commit outcome).2) := by
  rcases outcome with e | ⟨c, s⟩
  · refine Or.inr ⟨e, rfl, ?_⟩
    have hsame : p.setShelf kind (p.shelf kind) = p := by cases kind <;> rfl
    exact hsame.symm ▸ h
  · exact Or.inl ⟨c, s, rfl, rfl, h.commit hw (hs c s rfl) _⟩

/-! ## Requests -/

theorem setShelf_self (p : Plane) (kind : Kind) : p.setShelf kind (p.shelf kind) = p := by
  cases kind <;> rfl

theorem cached (h : w.Shows p) (kind : Kind) (key : Key) : Follows w p (.cached kind key) := by
  have hserve : Plane.serve (.cached kind key) p =
      (.ok (((p.shelf kind).visible p.cached).find? key), p) := by
    simp [Plane.serve, Plane.onShelf, Shelf.find, Shelf.lookup_eq (h.calm kind).2, setShelf_self]
  rw [Follows, hserve]
  exact ⟨w, .cached fun a ha => h.visible kind key a ha, h⟩

theorem cachedList (h : w.Shows p) (kind : Kind) (ns : String) (selector : Selector) :
    Follows w p (.cachedList kind ns selector) := by
  have hserve : Plane.serve (.cachedList kind ns selector) p =
      (.ok (((p.shelf kind).visible p.cached).list (some ns) selector), p) := by
    simp [Plane.serve, Plane.onShelf, Shelf.filter, Shelf.lookup_eq (h.calm kind).2, setShelf_self]
  rw [Follows, hserve]
  refine ⟨w, .cachedList fun a ha => ?_, h⟩
  obtain ⟨⟨k, b⟩, hmem, rfl⟩ := List.mem_map.1 (List.mem_of_mem_filter ha)
  exact (h.visible kind k b (Table.find?_eq_some_iff.2 hmem)).2

theorem get (h : w.Shows p) (kind : Kind) (key : Key) : Follows w p (.get kind key) := by
  have hserve : Plane.serve (.get kind key) p = (.ok ((w.stores kind).get? key), p) := by
    simp [Plane.serve, Plane.onShelf, Shelf.get, Shelf.call_eq (h.calm kind).1, setShelf_self,
      h.store]
  rw [Follows, hserve]
  exact ⟨w, .get, h⟩

theorem list (h : w.Shows p) (kind : Kind) (ns : String) (selector : Selector) :
    Follows w p (.list kind ns selector) := by
  have hserve : Plane.serve (.list kind ns selector) p =
      (.ok ((w.stores kind).objects.list (some ns) selector), p) := by
    simp [Plane.serve, Plane.onShelf, Shelf.list, Shelf.call_eq (h.calm kind).1, setShelf_self,
      h.store]
  rw [Follows, hserve]
  exact ⟨w, .list, h⟩

theorem create (h : w.Shows p) (hw : w.Recorded) (kind : Kind) (a : kind.Obj) :
    Follows w p (.create kind a) := by
  let q : Plane := { p with births := p.births + 1 }
  have hq : w.Shows q := h.congr q (fun kind => by cases kind <;> rfl) rfl h.registry
  have hserve : Plane.serve (.create kind a) p =
      (((q.shelf kind).commit ((w.stores kind).create (.numbered p.births) a)).1,
        q.setShelf kind
          ((q.shelf kind).commit ((w.stores kind).create (.numbered p.births) a)).2) := by
    rw [← hq.store kind]
    simp only [Plane.serve, Plane.onShelf, Shelf.create, Shelf.call_eq (hq.calm kind).1, q]
  rw [Follows, hserve]
  rcases hq.write hw fun c s => (hw kind).create with
    ⟨c, s, hok, hanswer, hv⟩ | ⟨e, hanswer, hv⟩
  · rw [hanswer]
    exact ⟨_, .create hok, hv⟩
  · rw [hanswer]
    exact ⟨w, .harmless trivial, hv⟩

theorem update (h : w.Shows p) (hw : w.Recorded) (kind : Kind) (a : kind.Obj) :
    Follows w p (.update kind a) := by
  have hserve : Plane.serve (.update kind a) p =
      (((p.shelf kind).commit ((w.stores kind).update a)).1,
        p.setShelf kind ((p.shelf kind).commit ((w.stores kind).update a)).2) := by
    rw [← h.store kind]
    simp only [Plane.serve, Plane.onShelf, Shelf.update, Shelf.call_eq (h.calm kind).1]
  rw [Follows, hserve]
  rcases h.write hw fun c s => (hw kind).update with ⟨c, s, hok, hanswer, hv⟩ | ⟨e, hanswer, hv⟩
  · rw [hanswer]
    exact ⟨_, .update hok, hv⟩
  · rw [hanswer]
    exact ⟨w, .harmless trivial, hv⟩

theorem delete (h : w.Shows p) (hw : w.Recorded) (kind : Kind) (key : Key) :
    Follows w p (.delete kind key) := by
  have hserve : Plane.serve (.delete kind key) p =
      (((p.shelf kind).commit ((w.stores kind).delete key)).1.map fun _ => (),
        p.setShelf kind ((p.shelf kind).commit ((w.stores kind).delete key)).2) := by
    rw [← h.store kind]
    simp only [Plane.serve, Plane.onShelf, Shelf.delete, Shelf.call_eq (h.calm kind).1]
  rw [Follows, hserve]
  rcases h.write hw fun c s => (hw kind).delete with ⟨c, s, hok, hanswer, hv⟩ | ⟨e, hanswer, hv⟩
  · rw [hanswer]
    exact ⟨_, .delete hok, hv⟩
  · rw [hanswer]
    exact ⟨w, .harmless trivial, hv⟩

theorem allocate (h : w.Shows p) (owner : Key) : Follows w p (.allocate owner) := by
  have hserve : Plane.serve (.allocate owner) p = ((w.registry.allocate owner).1,
      { p with registry := (w.registry.allocate owner).2 }) := by
    simp [Plane.serve, Plane.onRegistry, h.registry]
  rw [Follows, hserve]
  exact ⟨_, .allocate, h.congr { p with registry := (w.registry.allocate owner).2 }
    (fun kind => by cases kind <;> rfl) rfl rfl⟩

theorem release (h : w.Shows p) (owner : Key) (ports : List Port) :
    Follows w p (.release owner ports) := by
  have hserve : Plane.serve (.release owner ports) p = ((w.registry.release owner ports).1,
      { p with registry := (w.registry.release owner ports).2 }) := by
    simp [Plane.serve, Plane.onRegistry, h.registry]
  rw [Follows, hserve]
  exact ⟨_, .release, h.congr { p with registry := (w.registry.release owner ports).2 }
    (fun kind => by cases kind <;> rfl) rfl rfl⟩

/-- How a plane answers is one of the ways in which the world may answer. -/
theorem serve (h : w.Shows p) (hw : w.Recorded) (request : Request) : Follows w p request := by
  cases request with
  | cached kind key => exact h.cached kind key
  | cachedList kind ns selector => exact h.cachedList kind ns selector
  | get kind key => exact h.get kind key
  | list kind ns selector => exact h.list kind ns selector
  | create kind a => exact h.create hw kind a
  | update kind a => exact h.update hw kind a
  | delete kind key => exact h.delete hw kind key
  | allocate owner => exact h.allocate owner
  | release owner ports => exact h.release owner ports
  | suffix length =>
    exact ⟨w, .harmless trivial, h.congr { p with suffixes := p.suffixes + 1 }
      (fun kind => by cases kind <;> rfl) rfl h.registry⟩
  | record event =>
    exact ⟨w, .harmless trivial, h.congr { p with events := p.events ++ [event] }
      (fun kind => by cases kind <;> rfl) rfl h.registry⟩
  | _ => exact ⟨w, .harmless trivial, h⟩

end Shows

end World

end GameFleet
