import GameFleet.Proofs.Port.Registry
import Mathlib.Data.Finset.Card

/-!
# Free ports

A pool has so many free ports (`PortPool.free`), each counted once however often it comes in
the order. As long as there is one an allocation succeeds and takes one of them
(`PortPool.allocate_of_free`), and so does an allocation by a registry that serves
(`Registry.Serving.allocate`).
-/

namespace GameFleet

namespace PortPool

variable {ω : Type}

/-- The ports of the order that no one holds. -/
def free (pool : PortPool ω) : Finset Port := (pool.order.filter pool.isFree).toFinset

theorem mem_free {pool : PortPool ω} {p : Port} :
    p ∈ pool.free ↔ p ∈ pool.order ∧ pool.holder? p = none := by
  simp [free, isFree]

/-- A search comes to every port of the order. -/
theorem circuit_perm (pool : PortPool ω) : (pool.circuit.map Prod.fst).Perm pool.order := by
  rw [circuit, List.map_append, List.zipIdx_map_fst, List.zipIdx_map_fst]
  exact List.perm_append_comm.trans (List.take_append_drop _ _ ▸ List.Perm.refl _)

/-- A pool with a free port hands one out, which is not free then. -/
theorem allocate_of_free {pool : PortPool ω} (h : pool.free.Nonempty) (owner : ω) :
    ∃ p after, pool.allocate owner = .ok (p, after) ∧ p ∈ pool.free ∧
      after.free = pool.free.erase p := by
  obtain ⟨q, hq⟩ := h
  obtain ⟨hmem, hfree⟩ := mem_free.1 hq
  obtain ⟨place, hplace, rfl⟩ := List.mem_map.1 (pool.circuit_perm.mem_iff.2 hmem)
  have hsome : (pool.circuit.find? fun place => pool.isFree place.1).isSome :=
    List.find?_isSome.2 ⟨place, hplace, by simp [isFree, hfree]⟩
  obtain ⟨⟨p, i⟩, hfind⟩ := Option.isSome_iff_exists.1 hsome
  have hp : p ∈ pool.order :=
    pool.circuit_perm.mem_iff.1 (List.mem_map_of_mem (List.mem_of_find?_eq_some hfind))
  have hpfree : pool.holder? p = none := by simpa [isFree] using List.find?_some hfind
  have hallocate : pool.allocate owner = .ok (p, { pool with
      holders := pool.holders.insert p owner
      cursor := (i + 1) % pool.order.length }) := by
    rw [allocate, search_eq_find?, hfind]
  refine ⟨p, _, hallocate, mem_free.2 ⟨hp, hpfree⟩, Finset.ext fun r => ?_⟩
  rw [mem_free, Finset.mem_erase, mem_free, (allocate_eq_ok hallocate).2]
  by_cases hr : p = r
  · simp [hr]
  · simp [hr, Ne.symm hr]

end PortPool

namespace Registry

/-- The arbiter runs, and nobody is in the middle of a call. -/
structure Serving (r : Registry) : Prop extends r.Quiet where
  running : r.arbiter.ended = false
  stopping : r.arbiter.stopping = false
  reachable : r.arbiter.reachable = true

theorem serving_ofPool (pool : PortPool Key) : (ofPool pool).Serving :=
  ⟨quiet_ofPool pool, rfl, rfl, rfl⟩

namespace Serving

variable {r : Registry}

/-- A call comes to what the arbiter does. -/
theorem call (h : r.Serving) (request : PortRequest) :
    ∃ after : Registry, r.call request = (some (Arbiter.serve r.pool request).1, after) ∧
      after.Serving ∧ after.pool = (Arbiter.serve r.pool request).2 := by
  obtain ⟨⟨⟨pool, answers, gone⟩, mailbox, capacity, stopping, reachable, ended⟩, ticket⟩ := r
  obtain ⟨⟨hmailbox, hanswers, hgone, hroom⟩, hended, hstopping, hreachable⟩ := h
  simp only at hmailbox hanswers hgone hroom hended hstopping hreachable
  subst hmailbox hanswers hgone hended hstopping hreachable
  refine ⟨⟨⟨⟨(Arbiter.serve pool request).2, [], []⟩, [], capacity, false, true, false⟩,
    ticket + 1⟩, ?_, ⟨⟨rfl, rfl, rfl, hroom⟩, rfl, rfl, rfl⟩, rfl⟩
  simp [Registry.call, submit, Actor.send?, Actor.post?, Actor.hasRoom, hroom, settle, fetch,
    Actor.settle, Actor.steps, Actor.step?, Arbiter.behavior, Arbiter.handle, Verdict.ends,
    Registry.pool]

/-- A registry that has a free port hands one out. -/
theorem allocate (h : r.Serving) (hfree : r.pool.free.Nonempty) (owner : Key) :
    ∃ p after, r.allocate owner = (.ok p, after) ∧ after.Serving ∧
      after.pool.free.card + 1 = r.pool.free.card := by
  obtain ⟨after, hcall, hserving, hpool⟩ := h.call (.allocate owner)
  obtain ⟨p, pool, hallocate, hp, hpoolFree⟩ := PortPool.allocate_of_free hfree owner
  simp only [Arbiter.serve, hallocate] at hcall hpool
  refine ⟨p, after, ?_, hserving, ?_⟩
  · simp only [Registry.allocate, hcall]
    rfl
  · rw [hpool, hpoolFree, Finset.card_erase_add_one hp]

end Serving

end Registry

end GameFleet
