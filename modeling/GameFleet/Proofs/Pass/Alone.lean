import GameFleet.Naming
import GameFleet.Proofs.Pass.Contract
import GameFleet.Proofs.Plane.World
import GameFleet.Proofs.Port.Supply
import Mathlib.Data.Set.Finite.Basic
import Mathlib.Data.Fintype.EquivFin

/-!
# Programs that run alone

While a program runs alone, all that happens to a world is what the program asks for, and
what it looks up is what is stored. `World.Attends` says how its requests are answered then.
Some of the answers are not determined : what the time is, which names are drawn, which
numbers are picked. A name that is drawn for an object of `owner` is not in use.

`Succeeds` says of a program that it succeeds whatever those answers are, and what the world
is when it is done. It includes that every request has an answer, so a program that succeeds
does come to its end. The rules follow how passes are built.
-/

namespace GameFleet

namespace World

/-- The world after a write that a store was asked for. -/
def written (w : World) (kind : Kind) :
    Except StoreError (Change kind.Obj × Store kind.Obj) → World
  | .ok (c, s) => w.commit kind c s
  | .error _ => w

/-- The world after a change of what is stored. -/
def changed (w : World) (kind : Kind) (c : Change kind.Obj) : World :=
  w.commit kind c ((w.stores kind).commit c)

theorem stores_changed (w : World) (kind : Kind) (c : Change kind.Obj) :
    (w.changed kind c).stores kind = (w.stores kind).commit c :=
  w.stores_commit kind c _

theorem stores_changed_of_ne (w : World) {kind other : Kind} (h : other ≠ kind)
    (c : Change kind.Obj) : (w.changed kind c).stores other = w.stores other :=
  w.stores_commit_of_ne h c _

theorem Recorded.changed {w : World} (h : w.Recorded) {kind : Kind} {c : Change kind.Obj}
    (hc : (w.stores kind).Admits c) : (w.changed kind c).Recorded :=
  h.commit ((h kind).commit hc)

/-- How a request of a program that runs alone is answered, and what the world is then. -/
inductive Attends (owner : Key) (w : World) :
    (request : Request) → request.Answer → World → Prop where
  | cached {kind : Kind} {key : Key} :
    Attends owner w (.cached kind key) (.ok ((w.stores kind).get? key)) w
  | cachedList {kind : Kind} {ns : String} {selector : Selector} :
    Attends owner w (.cachedList kind ns selector)
      (.ok ((w.stores kind).objects.list (some ns) selector)) w
  | get {kind : Kind} {key : Key} :
    Attends owner w (.get kind key) (.ok ((w.stores kind).get? key)) w
  | list {kind : Kind} {ns : String} {selector : Selector} :
    Attends owner w (.list kind ns selector)
      (.ok ((w.stores kind).objects.list (some ns) selector)) w
  | create {kind : Kind} (birth : Birth) {a : kind.Obj} :
    Attends owner w (.create kind a)
      (((w.stores kind).create birth a).map fun result => result.1.object)
      (w.written kind ((w.stores kind).create birth a))
  | update {kind : Kind} {a : kind.Obj} :
    Attends owner w (.update kind a)
      (((w.stores kind).update a).map fun result => result.1.object)
      (w.written kind ((w.stores kind).update a))
  | delete {kind : Kind} {key : Key} :
    Attends owner w (.delete kind key) (((w.stores kind).delete key).map fun _ => ())
      (w.written kind ((w.stores kind).delete key))
  | allocate {holder : Key} :
    Attends owner w (.allocate holder) (w.registry.allocate holder).1
      { w with registry := (w.registry.allocate holder).2 }
  | release {holder : Key} {ports : List Port} :
    Attends owner w (.release holder ports) (w.registry.release holder ports).1
      { w with registry := (w.registry.release holder ports).2 }
  | now (t : Time.Instant) : Attends owner w .now t w
  /-- The name is not in use. -/
  | suffix {length : Nat} (s : String)
    (h : (w.stores .gameServer).get? ⟨owner.ns, Naming.generated owner.name s⟩ = none) :
    Attends owner w (.suffix length) s w
  /-- The numbers are different. -/
  | pick {total count : Nat} (picked : List Nat) (hlength : picked.length = count)
    (hnodup : picked.Nodup) (hlt : ∀ i ∈ picked, i < total) :
    Attends owner w (.pick total count) picked w
  | record {event : Event} : Attends owner w (.record event) () w
  | pause {failures : Nat} : Attends owner w (.pause failures) () w

section

variable {owner : Key} {w v : World} {kind : Kind} {key : Key}

theorem Attends.get_eq {found : Except StoreError (Option kind.Obj)}
    (h : w.Attends owner (.get kind key) found v) :
    found = .ok ((w.stores kind).get? key) ∧ v = w := by
  cases h
  exact ⟨rfl, rfl⟩

theorem Attends.allocate_eq {holder : Key} {answer : Except RegistryError Port}
    (h : w.Attends owner (.allocate holder) answer v) :
    w.registry.allocate holder = (answer, v.registry) ∧ v = { w with registry := v.registry } := by
  cases h
  exact ⟨rfl, rfl⟩

theorem Attends.create_eq {a : kind.Obj} {answer : Except StoreError kind.Obj}
    (h : w.Attends owner (.create kind a) answer v)
    (hnone : (w.stores kind).get? (Resource.key a) = none) :
    ∃ birth, answer = .ok ((w.stores kind).newborn birth a) ∧
      v = w.changed kind (.added ((w.stores kind).newborn birth a)) := by
  cases h with
  | create birth =>
    rw [Store.create_eq hnone]
    exact ⟨birth, rfl, rfl⟩

theorem Attends.update_eq {old a : kind.Obj} {answer : Except StoreError kind.Obj}
    (h : w.Attends owner (.update kind a) answer v)
    (hold : (w.stores kind).get? (Resource.key a) = some old)
    (hversion : Resource.version a = Resource.version old) :
    answer = .ok ((w.stores kind).successor old a) ∧
      v = w.changed kind (.updated old ((w.stores kind).successor old a)) := by
  cases h
  rw [Store.update_eq hold hversion]
  exact ⟨rfl, rfl⟩

theorem Attends.delete_eq {old : kind.Obj} {answer : Except StoreError Unit}
    (h : w.Attends owner (.delete kind key) answer v) (hs : (w.stores kind).Sound)
    (hold : (w.stores kind).get? key = some old) :
    answer = .ok () ∧ v = w.changed kind (.deleted old) := by
  cases h
  rw [Store.delete_eq hs hold]
  exact ⟨rfl, rfl⟩

end

/-- What may be asked for alone is what has an answer. -/
def alone (owner : Key) : Contract World :=
  ⟨fun w request => ∃ answer v, w.Attends owner request answer v, fun w => w.Attends owner⟩

/-- There always is a name that is not in use. -/
theorem exists_unused (w : World) (owner : Key) :
    ∃ s, (w.stores .gameServer).get? ⟨owner.ns, Naming.generated owner.name s⟩ = none := by
  have hinj : Function.Injective fun s => (⟨owner.ns, Naming.generated owner.name s⟩ : Key) := by
    intro s t h
    simpa [Naming.generated] using h
  obtain ⟨_, ⟨s, rfl⟩, hs⟩ := (Set.infinite_range_of_injective hinj).exists_notMem_finset
    (w.stores .gameServer).objects.keys.toFinset
  refine ⟨s, Option.eq_none_iff_forall_ne_some.2 fun g hg => hs ?_⟩
  have hmem := Table.find?_eq_some_iff.1 hg
  exact List.mem_toFinset.2 (List.mem_map_of_mem hmem)

end World

variable {α β ε : Type} {owner : Key} {w : World}

/-- Run alone, the program succeeds, and then `post` holds. -/
def Succeeds (owner : Key) (p : ExceptT ε Program α) (post : α → World → Prop) (w : World) :
    Prop :=
  p.run.Keeps (World.alone owner) (Program.Ends post fun _ _ => False) w

theorem succeeds_pure {a : α} {post : α → World → Prop} (h : post a w) :
    Succeeds owner (pure a : ExceptT ε Program α) post w :=
  h

namespace Succeeds

variable {p : ExceptT ε Program α} {post : α → World → Prop}

/-- A program that succeeds does not fail, whatever is to hold if it does. -/
theorem ends {error : ε → World → Prop} (h : Succeeds owner p post w) :
    p.run.Keeps (World.alone owner) (Program.Ends post error) w := by
  refine Program.Keeps.mono h fun r v hr => ?_
  cases r with
  | ok a => exact hr
  | error e => exact hr.elim

theorem bind {f : α → ExceptT ε Program β} {after : β → World → Prop}
    (h : Succeeds owner p post w) (hf : ∀ a v, post a v → Succeeds owner (f a) after v) :
    Succeeds owner (p >>= f) after w :=
  Program.Keeps.bindExcept h hf

theorem mono {post' : α → World → Prop} (h : Succeeds owner p post w)
    (hpost : ∀ a v, post a v → post' a v) : Succeeds owner p post' w :=
  Program.Keeps.endsMono h hpost

end Succeeds

/-! ## Requests -/

namespace Pass

theorem succeeds_ask {request : Request} {post : request.Answer → World → Prop}
    (hmay : ∃ answer v, w.Attends owner request answer v)
    (h : ∀ answer v, w.Attends owner request answer v → post answer v) :
    Succeeds owner (ask request) post w :=
  ⟨hmay, h⟩

theorem succeeds_record (type : EventType) (kind : Kind) (object : Key) (reason : Reason)
    (message : String) {post : Unit → World → Prop} (h : post () w) :
    Succeeds owner (record type kind object reason message) post w := by
  refine succeeds_ask ⟨_, _, .record⟩ fun answer v hv => ?_
  cases hv
  exact h

theorem succeeds_access {p : Access α} {post : α → World → Prop} (h : Succeeds owner p post w) :
    Succeeds owner (access p) post w :=
  keeps_access h

theorem succeeds_cached {kind : Kind} {key : Key} {post : Option kind.Obj → World → Prop}
    (h : post ((w.stores kind).get? key) w) : Succeeds owner (cached kind key) post w := by
  refine succeeds_access ⟨⟨_, _, .cached⟩, fun answer v hv => ?_⟩
  cases hv
  exact h

theorem succeeds_list {kind : Kind} {ns : String} {selector : Selector}
    {post : List kind.Obj → World → Prop}
    (h : post ((w.stores kind).objects.list (some ns) selector) w) :
    Succeeds owner (access (.list kind ns selector)) post w := by
  refine succeeds_access ⟨⟨_, _, .list⟩, fun answer v hv => ?_⟩
  cases hv
  exact h

theorem succeeds_cachedList {kind : Kind} {ns : String} {selector : Selector}
    {post : List kind.Obj → World → Prop}
    (h : post ((w.stores kind).objects.list (some ns) selector) w) :
    Succeeds owner (cachedList kind ns selector) post w := by
  refine succeeds_access ⟨⟨_, _, .cachedList⟩, fun answer v hv => ?_⟩
  cases hv
  exact h

/-- What can be changed of an object that is stored is changed, at the first attempt. -/
theorem succeeds_modify {retry : Retry} {kind : Kind} {key : Key}
    {change : kind.Obj → Option kind.Obj} {a : kind.Obj} {post : Option kind.Obj → World → Prop}
    (ha : (w.stores kind).get? key = some a) (hleft : change a = none → post (some a) w)
    (hwritten : ∀ b, change a = some b → Resource.key b = key ∧
      Resource.version b = Resource.version a ∧
      post (some ((w.stores kind).successor a b))
        (w.changed kind (.updated a ((w.stores kind).successor a b)))) :
    Succeeds owner (access (.modify retry kind key change)) post w := by
  suffices hchanges : Access.Changes (World.alone owner) kind key change (fun v => v = w)
      (fun b v => v = w ∧ b = a) (Program.Ends post fun _ _ => False) from
    succeeds_access (hchanges.keeps retry rfl)
  constructor
  case get => exact fun _ => ⟨_, _, .get⟩
  case missing =>
    rintro v t rfl ht
    have hnone := ht.get_eq.1
    rw [ha] at hnone
    cases hnone
  case found =>
    rintro v b t rfl ht
    obtain ⟨hb, rfl⟩ := ht.get_eq
    rw [ha] at hb
    cases hb
    exact ⟨rfl, rfl⟩
  case failed =>
    rintro v e t rfl ht
    cases ht.get_eq.1
  case left =>
    rintro b v ⟨rfl, rfl⟩ hnone
    exact hleft hnone
  case update => exact fun _ _ => ⟨_, _, .update⟩
  case written =>
    rintro b c v stored t ⟨rfl, rfl⟩ hc ht
    obtain ⟨hkey, hversion, hpost⟩ := hwritten c hc
    obtain ⟨hstored, rfl⟩ := ht.update_eq (by rwa [hkey]) hversion
    cases hstored
    exact hpost
  case refused =>
    rintro b c v e t ⟨rfl, rfl⟩ hc ht
    obtain ⟨hkey, hversion, -⟩ := hwritten c hc
    cases (ht.update_eq (by rwa [hkey]) hversion).1
  case pause => exact fun _ => ⟨_, _, .pause⟩
  case paused =>
    rintro v failures t rfl ht
    cases ht
    rfl

/-- As many ports are allocated as are asked for, if so many are free. -/
theorem succeeds_allocate {holder : Key} {n : Nat} {taken : List Port}
    {post : List Port → World → Prop} (hserving : w.registry.Serving)
    (hfree : n ≤ w.registry.pool.free.card)
    (h : ∀ (ports : List Port) (r : Registry), ports.length = taken.length + n → r.Serving →
      r.pool.free.card + n = w.registry.pool.free.card → post ports { w with registry := r }) :
    Succeeds owner (allocate holder n taken) post w := by
  have hheld : Succeeds owner (allocate holder n taken) (fun ports v =>
      ports.length = taken.length + n ∧ v = { w with registry := v.registry } ∧
        v.registry.Serving ∧ v.registry.pool.free.card + ports.length =
          w.registry.pool.free.card + taken.length) w := by
    refine keeps_allocate_held (C := World.alone owner) (fun _ => ⟨_, _, .allocate⟩) ?_ ?_ rfl
      ⟨rfl, hserving, rfl⟩
    · rintro ports v p t hlt ⟨hworld, hv, hcard⟩ ht
      obtain ⟨hallocate, ht⟩ := ht.allocate_eq
      have hpos : v.registry.pool.free.Nonempty := Finset.card_pos.1 (by omega)
      obtain ⟨q, after, heq, hafter, hleft⟩ := hv.allocate hpos holder
      obtain ⟨hanswer, rfl⟩ := Prod.mk.inj (heq.symm.trans hallocate)
      refine ⟨ht.trans (by rw [hworld]), hafter, ?_⟩
      rw [List.length_append, List.length_singleton]
      omega
    · rintro ports v cause t hlt ⟨hworld, hv, hcard⟩ ht
      have hpos : v.registry.pool.free.Nonempty := Finset.card_pos.1 (by omega)
      obtain ⟨q, after, heq, -, -⟩ := hv.allocate hpos holder
      cases (Prod.mk.inj (heq.symm.trans ht.allocate_eq.1)).1
  refine hheld.mono fun ports v hv => ?_
  obtain ⟨hlength, hworld, hr, hcard⟩ := hv
  rw [hworld]
  exact h ports v.registry hlength hr (by omega)

end Pass

end GameFleet
