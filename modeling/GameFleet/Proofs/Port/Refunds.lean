import GameFleet.Pass.Collections
import GameFleet.Pass.GameServers
import GameFleet.Proofs.Pass.Contract
import GameFleet.Proofs.Plane.World
import GameFleet.Proofs.Port.Claims
import GameFleet.Proofs.Port.Order

/-!
# Ports that are given back

Host ports are taken for an instance before it is written. When there are too few of them, or
the store refuses the instance, those that were taken go back, and no others : the holder may
have ports already, and keeps them (`Registry.Lends.refund`). So a call that fails leaves every
port as it was, wherever it fails, and a call that succeeds leaves the instance stored with the
ports that were taken for it (`Pass.furnishes_or_restores`).
-/

namespace GameFleet

/-! ## Filled ports -/

namespace Template

/-- The ports that want a host port have got one each, of a list and in its order, and the others
are as they were. -/
inductive Fits (wants : ContainerPort → Bool) :
    List Port → List ContainerPort → List ContainerPort → Prop where
  | nil : Fits wants [] [] []
  | filled {hs : List Port} {ps ps' : List ContainerPort} (h : Port) {p : ContainerPort}
    (hwants : wants p = true) (hrest : Fits wants hs ps ps') :
    Fits wants (h :: hs) (p :: ps) ({ p with hostPort := some h } :: ps')
  | left {hs : List Port} {ps ps' : List ContainerPort} {p : ContainerPort}
    (hwants : wants p = false) (hrest : Fits wants hs ps ps') : Fits wants hs (p :: ps) (p :: ps')

theorem fits_fillPorts {wants : ContainerPort → Bool} (ps : List ContainerPort) {hs : List Port}
    (hlength : hs.length = ps.countP wants) : Fits wants hs ps (fillPorts wants ps hs).1 := by
  induction ps generalizing hs with
  | nil =>
    obtain rfl := List.length_eq_zero_iff.1 hlength
    exact .nil
  | cons p ps ih =>
    cases hp : wants p with
    | true =>
      rw [List.countP_cons_of_pos hp] at hlength
      obtain ⟨h, hs, rfl⟩ := List.exists_cons_of_length_eq_add_one hlength
      simp only [fillPorts, hp, if_true, List.tail_cons]
      exact .filled h hp (ih (Nat.succ.inj hlength))
    | false =>
      rw [List.countP_cons_of_neg (by simp [hp])] at hlength
      simp only [fillPorts, hp, Bool.false_eq_true, if_false]
      exact .left hp (ih hlength)

end Template

/-! ## Ports that were taken -/

namespace Registry

/-- Ports were taken for an owner, which were free and are different. Every other port has the
holder it had. -/
structure Lends (r : Registry) (owner : Key) (taken : List Port) (after : Registry) : Prop where
  serving : after.Serving
  order : after.pool.order = r.pool.order
  nodup : taken.Nodup
  free : ∀ p ∈ taken, p ∈ r.pool.free
  holder : ∀ p, after.pool.holder? p = if p ∈ taken then some owner else r.pool.holder? p

variable {r after next : Registry} {owner : Key} {taken : List Port} {p : Port}

/-- A registry that serves hands out what its pool allocates. -/
theorem Serving.allocate_eq_ok (h : r.Serving) (hallocate : r.allocate owner = (.ok p, next)) :
    next.Serving ∧ r.pool.allocate owner = .ok (p, next.pool) := by
  obtain ⟨after, hcall, hserving, hpool⟩ := h.call (.allocate owner)
  cases hcase : r.pool.allocate owner with
  | ok allocated =>
    simp only [Arbiter.serve, hcase] at hcall hpool
    simp only [Registry.allocate, hcall] at hallocate
    cases hallocate
    exact ⟨hserving, by rw [hpool]⟩
  | error cause =>
    simp only [Arbiter.serve, hcase] at hcall
    simp only [Registry.allocate, hcall] at hallocate
    cases hallocate

theorem Serving.allocate_eq_error (h : r.Serving) {cause : RegistryError}
    (hallocate : r.allocate owner = (.error cause, next)) : next.Serving ∧ next.pool = r.pool := by
  obtain ⟨after, hcall, hserving, hpool⟩ := h.call (.allocate owner)
  cases hcase : r.pool.allocate owner with
  | ok allocated =>
    simp only [Arbiter.serve, hcase] at hcall
    simp only [Registry.allocate, hcall] at hallocate
    cases hallocate
  | error cause =>
    simp only [Arbiter.serve, hcase] at hcall hpool
    simp only [Registry.allocate, hcall] at hallocate
    cases hallocate
    exact ⟨hserving, hpool⟩

theorem Serving.pool_release (h : r.Serving) (owner : Key) (ports : List Port) :
    (r.release owner ports).2.pool = (r.pool.release owner ports).2 := by
  unfold release
  split
  · next hnone =>
    rw [List.isEmpty_iff.1 hnone]
    rfl
  · obtain ⟨after, hcall, -, hpool⟩ := h.call (.release owner ports)
    simp only [Arbiter.serve] at hcall hpool
    rw [hcall]
    exact hpool

namespace Lends

theorem refl (h : r.Serving) (owner : Key) : r.Lends owner [] r :=
  ⟨h, rfl, List.nodup_nil, nofun, fun _ => (if_neg List.not_mem_nil).symm⟩

theorem allocate (h : r.Lends owner taken after)
    (hallocate : after.allocate owner = (.ok p, next)) : r.Lends owner (taken ++ [p]) next := by
  obtain ⟨hserving, hpool⟩ := h.serving.allocate_eq_ok hallocate
  obtain ⟨hfree, hholder⟩ := PortPool.allocate_eq_ok hpool
  obtain ⟨hplace, i, hnext⟩ := PortPool.allocate_eq_place hpool
  have hnot : p ∉ taken := fun hp => by
    rw [h.holder, if_pos hp] at hfree
    cases hfree
  rw [h.holder, if_neg hnot] at hfree
  refine ⟨hserving, by rw [hnext, ← h.order], ?_, fun q hq => ?_, fun q => ?_⟩
  · exact h.nodup.append (List.nodup_singleton p) (List.disjoint_singleton.2 hnot)
  · rcases List.mem_append.1 hq with hq | hq
    · exact h.free q hq
    · obtain rfl := List.mem_singleton.1 hq
      exact PortPool.mem_free.2 ⟨h.order ▸ hplace, hfree⟩
  · rw [hholder, h.holder]
    by_cases hq : p = q
    · simp [hq]
    · simp [hq, Ne.symm hq]

theorem allocate_error (h : r.Lends owner taken after) {cause : RegistryError}
    (hallocate : after.allocate owner = (.error cause, next)) : r.Lends owner taken next := by
  obtain ⟨hserving, hpool⟩ := h.serving.allocate_eq_error hallocate
  exact ⟨hserving, hpool ▸ h.order, h.nodup, h.free, fun p => hpool ▸ h.holder p⟩

/-- When the ports that were taken are given back every port has the holder it had. -/
theorem refund (h : r.Lends owner taken after) (p : Port) :
    (after.release owner taken).2.pool.holder? p = r.pool.holder? p := by
  rw [h.serving.pool_release, PortPool.holder?_release, h.holder]
  by_cases hp : p ∈ taken
  · rw [if_pos ⟨hp, if_pos hp⟩]
    exact (PortPool.mem_free.1 (h.free p hp)).2.symm
  · rw [if_neg fun hand => hp hand.1, if_neg hp]

end Lends

end Registry

/-! ## Requests -/

/-- The request is one to the registry. -/
def Request.IsForPorts : Request → Prop
  | .allocate _ => True
  | .release _ _ => True
  | _ => False

namespace World

/-- How a request is answered while the registry serves and nothing else goes on. A store may
refuse what it is asked for, for any reason, and does nothing then. -/
inductive Supplies (w : World) : (request : Request) → request.Answer → World → Prop where
  | served {request : Request} {answer : request.Answer} {v : World}
    (hother : ¬request.IsForPorts) (h : w.Serves request answer v) : Supplies w request answer v
  | allocate {owner : Key} : Supplies w (.allocate owner) (w.registry.allocate owner).1
    { w with registry := (w.registry.allocate owner).2 }
  | release {owner : Key} {ports : List Port} :
    Supplies w (.release owner ports) (w.registry.release owner ports).1
      { w with registry := (w.registry.release owner ports).2 }

/-- What may be asked for is what has an answer. -/
def supplied : Contract World :=
  ⟨fun w request => ∃ answer v, w.Supplies request answer v, Supplies⟩

variable {w v u : World} {owner : Key} {taken : List Port} {g : GameServer}

theorem Supplies.allocate_eq {answer : Except RegistryError Port}
    (h : w.Supplies (.allocate owner) answer v) :
    w.registry.allocate owner = (answer, v.registry) ∧ v.stores = w.stores := by
  cases h with
  | served hother => exact absurd trivial hother
  | allocate => exact ⟨rfl, rfl⟩

theorem Supplies.release_eq {answer : Except RegistryError Nat}
    (h : w.Supplies (.release owner taken) answer v) :
    v.registry = (w.registry.release owner taken).2 ∧ v.stores = w.stores := by
  cases h with
  | served hother => exact absurd trivial hother
  | release => exact ⟨rfl, rfl⟩

/-- A write of an instance is accepted or refused. -/
inductive Settles (w : World) (g : GameServer) : Except StoreError GameServer → World → Prop where
  | accepted {stored : GameServer} {v : World}
    (hget : (v.stores .gameServer).get? (Resource.key g) = some stored)
    (hkey : Resource.key stored = Resource.key g) (hspec : stored.spec = g.spec)
    (hregistry : v.registry = w.registry) : Settles w g (.ok stored) v
  | refused (cause : StoreError) : Settles w g (.error cause) w

theorem Supplies.create {answer : Except StoreError GameServer}
    (h : w.Supplies (.create .gameServer g) answer v) : w.Settles g answer v := by
  cases h with
  | served _ h =>
    cases h with
    | harmless h =>
      cases answer with
      | ok stored => exact h.elim
      | error cause => exact .refused cause
    | create h =>
      obtain ⟨-, rfl, rfl⟩ := Store.create_eq_ok h
      refine .accepted ?_ (Store.key_newborn _ _ _) rfl rfl
      rw [w.stores_commit, Store.get?_commit]
      exact if_pos (Store.key_newborn _ _ _)

theorem Supplies.update {answer : Except StoreError GameServer}
    (h : w.Supplies (.update .gameServer g) answer v) : w.Settles g answer v := by
  cases h with
  | served _ h =>
    cases h with
    | harmless h =>
      cases answer with
      | ok stored => exact h.elim
      | error cause => exact .refused cause
    | update h =>
      obtain ⟨old, -, -, rfl, rfl⟩ := Store.update_eq_ok h
      refine .accepted ?_ (Store.key_successor _ _ _) rfl rfl
      rw [w.stores_commit, Store.get?_commit]
      exact if_pos (Store.key_successor _ _ _)

/-! ## Outcomes -/

/-- Nothing else is stored than before, and every port has the holder it had. -/
structure Restored (w v : World) : Prop where
  stores : v.stores = w.stores
  holder : ∀ p, v.registry.pool.holder? p = w.registry.pool.holder? p

/-- The instance is stored with host ports on those ports that wanted one. The host ports were
free, are different, and are held under its key. -/
structure Furnishes (w : World) (g : GameServer) (wants : ContainerPort → Bool)
    (stored : GameServer) (v : World) : Prop where
  found : (v.stores .gameServer).get? (Resource.key g) = some stored
  key : Resource.key stored = Resource.key g
  exposed : stored.spec.portsToExpose = g.spec.portsToExpose
  ports : ∃ hostPorts, w.registry.Lends (Resource.key g) hostPorts v.registry ∧
    Template.Fits wants hostPorts g.spec.template.ports stored.spec.template.ports

/-- Ports were taken, and nothing else has happened. -/
structure Lends (w : World) (owner : Key) (taken : List Port) (v : World) : Prop where
  stores : v.stores = w.stores
  registry : w.registry.Lends owner taken v.registry

/-- An instance that is stored with the ports that were taken for it is furnished. -/
theorem Lends.furnishes {wants : ContainerPort → Bool} {stored : GameServer}
    (h : w.Lends (Resource.key g) taken v)
    (hlength : taken.length = g.spec.template.ports.countP wants)
    (hsettles : v.Settles (g.withFilled wants taken) (.ok stored) u) :
    w.Furnishes g wants stored u := by
  cases hsettles with
  | accepted hget hkey hspec hregistry =>
    refine ⟨hget, hkey, by rw [hspec]; rfl, taken, hregistry ▸ h.registry, ?_⟩
    have hports : stored.spec.template.ports =
        (Template.fillPorts wants g.spec.template.ports taken).1 := by
      rw [hspec]
      exact Template.ports_filled _ _ _
    rw [hports]
    exact Template.fits_fillPorts _ hlength

end World

/-! ## Calls -/

namespace Pass

open Program (Ends)

variable {α : Type} {w v : World} {owner : Key} {taken : List Port}

/-- To give back the ports that were taken restores the world. -/
theorem keeps_refund (h : w.Lends owner taken v) :
    (release owner taken).run.Keeps World.supplied
      (Ends (fun _ u => w.Restored u) fun _ u => w.Restored u) v := by
  refine ⟨⟨_, _, .release⟩, fun answer u hu => ?_⟩
  obtain ⟨hregistry, hstores⟩ := hu.release_eq
  refine ⟨hstores.trans h.stores, fun p => ?_⟩
  rw [hregistry]
  exact h.registry.refund p

theorem keeps_refund_throw {ok : α → World → Prop} (h : w.Lends owner taken v)
    (cause : PassError) :
    (release owner taken >>= fun _ => (throw cause : Pass α)).run.Keeps World.supplied
      (Ends ok fun _ u => w.Restored u) v :=
  (keeps_refund h).bindExcept fun _ _ hu => hu

theorem keeps_allocate_lends (hserving : w.registry.Serving) (owner : Key) (n : Nat) :
    (allocate owner n []).run.Keeps World.supplied
      (Ends (fun ports v => ports.length = n ∧ w.Lends owner ports v) fun _ v => w.Restored v)
      w := by
  refine keeps_allocate_held (C := World.supplied) (fun _ => ⟨_, _, .allocate⟩) ?_ ?_
    (Nat.zero_add n) ⟨rfl, .refl hserving owner⟩
  · rintro ports v p t - hv ht
    obtain ⟨hallocate, hstores⟩ := ht.allocate_eq
    exact ⟨hstores.trans hv.stores, hv.registry.allocate hallocate⟩
  · rintro ports v cause t - hv ht
    obtain ⟨hallocate, hstores⟩ := ht.allocate_eq
    exact keeps_refund ⟨hstores.trans hv.stores, hv.registry.allocate_error hallocate⟩

theorem keeps_createMember_supplied (hserving : w.registry.Serving) (c : Collection) :
    (createMember c).run.Keeps World.supplied
      (Ends (fun _ v => ∃ (name : String) (stored : GameServer),
          w.Furnishes (c.newMember name) (c.newMember name).exposes stored v)
        fun _ v => w.Restored v) w := by
  have hsuffix : (ask (.suffix Naming.suffixLength)).run.Keeps World.supplied
      (Ends (fun (_ : String) v => v = w) fun _ v => w.Restored v) w := by
    refine ⟨⟨"", w, .served id (.harmless trivial)⟩, fun answer v hv => ?_⟩
    cases hv with
    | served _ h =>
      cases h
      rfl
  refine hsuffix.bindExcept ?_
  rintro suffix v rfl
  set g := c.newMember (Naming.generated c.metadata.name suffix) with hg
  refine (keeps_allocate_lends hserving (Resource.key g) _).bindExcept fun taken u hu => ?_
  obtain ⟨hlength, hlends⟩ := hu
  set filled := g.withFilled g.exposes taken with hfilled
  have hcreated : (ask (.create .gameServer filled)).run.Keeps World.supplied
      (Ends (fun answer t => u.Settles filled answer t) fun _ t => v.Restored t) u :=
    ⟨⟨.error (.unavailable ""), u, .served id (.harmless trivial)⟩, fun _ _ ht => ht.create⟩
  refine hcreated.bindExcept fun answer t ht => ?_
  cases answer with
  | ok stored => exact ⟨_, stored, hlends.furnishes hlength ht⟩
  | error cause =>
    cases ht
    exact keeps_refund_throw hlends _

theorem keeps_assignHostPorts_supplied (hserving : w.registry.Serving) (g : GameServer) :
    (assignHostPorts g).run.Keeps World.supplied
      (Ends (fun stored v => w.Furnishes g g.awaitsHostPort stored v) fun _ v => w.Restored v)
      w := by
  refine (keeps_allocate_lends hserving (Resource.key g) _).bindExcept fun taken u hu => ?_
  obtain ⟨hlength, hlends⟩ := hu
  set filled := g.withFilled g.awaitsHostPort taken with hfilled
  have hupdated : (ask (.update .gameServer filled)).run.Keeps World.supplied
      (Ends (fun answer t => u.Settles filled answer t) fun _ t => w.Restored t) u :=
    ⟨⟨.error (.unavailable ""), u, .served id (.harmless trivial)⟩, fun _ _ ht => ht.update⟩
  refine hupdated.bindExcept fun answer t ht => ?_
  cases answer with
  | ok stored => exact hlends.furnishes hlength ht
  | error cause =>
    cases ht
    exact keeps_refund_throw hlends _

/-- To make a member, or to give an instance the host ports that it lacks, either fails and leaves
what is stored and the holder of every port as they were, or succeeds and leaves the instance
stored, with host ports of its own that were free before. What the pool holds does not matter, nor
where the ports run out, nor why the store refuses the instance. -/
theorem furnishes_or_restores (hserving : w.registry.Serving) (c : Collection) (g : GameServer) :
    (createMember c).run.Keeps World.supplied
      (Ends (fun _ v => ∃ (name : String) (stored : GameServer),
          w.Furnishes (c.newMember name) (c.newMember name).exposes stored v)
        fun _ v => w.Restored v) w ∧
    (assignHostPorts g).run.Keeps World.supplied
      (Ends (fun stored v => w.Furnishes g g.awaitsHostPort stored v) fun _ v => w.Restored v) w :=
  ⟨keeps_createMember_supplied hserving c, keeps_assignHostPorts_supplied hserving g⟩

/-- A pool of two ports, a collection whose members have one, and an instance that lacks one. -/
theorem furnishes_or_restores_blank :
    let w := World.blank (Sample.registry [])
    let c := Sample.collection "arena" 1 .remove 5 none
    let g := Sample.gameServer "south"
    (createMember c).run.Keeps World.supplied
      (Ends (fun _ v => ∃ (name : String) (stored : GameServer),
          w.Furnishes (c.newMember name) (c.newMember name).exposes stored v)
        fun _ v => w.Restored v) w ∧
    (assignHostPorts g).run.Keeps World.supplied
      (Ends (fun stored v => w.Furnishes g g.awaitsHostPort stored v) fun _ v => w.Restored v) w :=
  furnishes_or_restores (Registry.serving_ofPool _) _ _

end Pass

end GameFleet
