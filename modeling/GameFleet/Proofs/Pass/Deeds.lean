import GameFleet.Proofs.Collection.Writers
import GameFleet.Proofs.Plane.Chronicle

/-!
# What deeds come to

What is on record of a deed tells what the task may have asked for : the notes that it had taken
were of objects that were stored (`Notes.sound_of`), and the request is one that its duty allows
(`Chronicle.Happened.mayAsk`). What a deed changes is one object of one store at most
(`World.Serves.change_cases`).
-/

namespace GameFleet

/-! ## Answers -/

namespace Exchange.Possible

theorem tells {request : Request} {answer : request.Answer}
    (h : Possible ⟨request, answer⟩) : request.Tells answer := by
  obtain ⟨w, v, hw, hserves⟩ := h
  exact hserves.tells hw

/-- What is stored by an update is what was written, but for what the store sees to. -/
theorem updated {kind : Kind} {a b : kind.Obj} (h : Possible ⟨.update kind a, .ok b⟩) :
    ∃ (s : Store kind.Obj) (old : kind.Obj), b = s.successor old a := by
  obtain ⟨w, v, hw, hserves⟩ := h
  cases hserves with
  | harmless h => exact h.elim
  | update hw =>
    obtain ⟨old, -, -, rfl, -⟩ := Store.update_eq_ok hw
    exact ⟨_, old, rfl⟩

end Exchange.Possible

/-! ## Notes -/

namespace Notes

/-- The notes of a task with these exchanges. -/
def of (past : List Exchange) : Notes :=
  past.foldl (fun s x => s.after x.request x.answer) .empty

theorem of_concat (past : List Exchange) (x : Exchange) :
    of (past ++ [x]) = (of past).after x.request x.answer := by
  simp [of]

/-- What was shown is noted. -/
theorem Sound.shown {s : Notes} {w : World} (h : s.Sound w) {x : Exchange} (hx : x.Shown w) :
    (s.after x.request x.answer).Sound w := by
  obtain ⟨request, answer⟩ := x
  change (s.after request answer).Sound w
  unfold after
  split
  · next key found =>
    refine ⟨fun c hc => (List.mem_append.1 hc).elim (h.looked c) fun hc => ?_, h.got, h.servers⟩
    obtain rfl := Option.mem_toList.1 hc
    exact hx.2
  · next key found =>
    refine ⟨h.looked, fun c hc => (List.mem_append.1 hc).elim (h.got c) fun hc => ?_, h.servers⟩
    obtain rfl := Option.mem_toList.1 hc
    exact hx.2
  · next key found =>
    refine ⟨h.looked, h.got, fun g hg => (List.mem_append.1 hg).elim (h.servers g) fun hg => ?_⟩
    obtain rfl := Option.mem_toList.1 hg
    exact hx.2
  · next key found =>
    refine ⟨h.looked, h.got, fun g hg => (List.mem_append.1 hg).elim (h.servers g) fun hg => ?_⟩
    obtain rfl := Option.mem_toList.1 hg
    exact hx.2
  · exact ⟨h.looked, h.got, h.servers⟩
  · exact h

/-- What is noted in a diary was stored at some moment. -/
theorem sound_of {w : World} {past : List Exchange} (h : ∀ x ∈ past, x.Shown w) :
    (of past).Sound w := by
  induction past using List.reverseRecOn with
  | nil => exact sound_empty w
  | append_singleton past x ih =>
    rw [of_concat]
    exact (ih fun y hy => h y (List.mem_append_left _ hy)).shown
      (h x (List.mem_append_right _ List.mem_cons_self))

end Notes

namespace Chronicle

variable {deeds : List Deed} {d : Deed}

/-- A deed is one that the duty allows. -/
theorem Happened.mayAsk (h : Happened deeds d)
    (hpossible : FairTo deeds (fun _ x => x.Possible) d.duty) :
    d.duty.May (Notes.of d.past) d.exchange.request := by
  have hkeeps : d.duty.program.Keeps (Contract.noting (fun s x => s.after x.request x.answer)
      d.duty.May fun _ x => x.request.Tells x.answer) (fun _ _ => True) Notes.empty :=
    d.duty.keeps
  exact h.may hkeeps fun e he hduty => (hpossible e he hduty).tells

end Chronicle

/-! ## Changes -/

namespace World

variable {w v : World} {request : Request} {answer : request.Answer}

/-- What is stored under a key after an update. -/
theorem get?_updated (w : World) (kind : Kind) {key : Key} {old a : kind.Obj}
    (h : Resource.key a = key) :
    ((w.changed kind (.updated old ((w.stores kind).successor old a))).stores kind).get? key =
      some ((w.stores kind).successor old a) := by
  rw [stores_changed, Store.get?_commit, Change.object, Store.key_successor, if_pos h]
  rfl

/-- What may happen to the objects of a kind when a request is served. -/
theorem Serves.change_cases (hw : w.Recorded) (kind : Kind) (h : w.Serves request answer v) :
    v.stores kind = w.stores kind ∨
      (∃ a birth, request = .create kind a ∧ (w.stores kind).get? (Resource.key a) = none ∧
        v = w.changed kind (.added ((w.stores kind).newborn birth a)) ∧
          (w.stores kind).Admits (.added ((w.stores kind).newborn birth a))) ∨
      (∃ a old, request = .update kind a ∧ (w.stores kind).get? (Resource.key a) = some old ∧
        Resource.version a = Resource.version old ∧
        v = w.changed kind (.updated old ((w.stores kind).successor old a)) ∧
          (w.stores kind).Admits (.updated old ((w.stores kind).successor old a))) ∨
      (∃ k old, request = .delete kind k ∧ (w.stores kind).get? k = some old ∧
        v = w.changed kind (.deleted old) ∧ (w.stores kind).Admits (.deleted old)) := by
  cases h with
  | @create other birth a c s h =>
    by_cases hkind : kind = other
    · subst hkind
      have hadmits := Store.admits_of_create h
      obtain ⟨hnone, rfl, rfl⟩ := Store.create_eq_ok h
      exact .inr (.inl ⟨a, birth, rfl, hnone, rfl, hadmits⟩)
    · exact .inl (stores_commit_of_ne _ hkind _ _)
  | @update other a c s h =>
    by_cases hkind : kind = other
    · subst hkind
      have hadmits := Store.admits_of_update h
      obtain ⟨old, hold, hversion, rfl, rfl⟩ := Store.update_eq_ok h
      exact .inr (.inr (.inl ⟨a, old, rfl, hold, hversion.symm, rfl, hadmits⟩))
    · exact .inl (stores_commit_of_ne _ hkind _ _)
  | @delete other k c s h =>
    by_cases hkind : kind = other
    · subst hkind
      have hadmits := Store.admits_of_delete (hw _).sound h
      obtain ⟨old, hold, rfl, rfl⟩ := Store.delete_eq_ok (hw _).sound h
      exact .inr (.inr (.inr ⟨k, old, rfl, hold, rfl, hadmits⟩))
    · exact .inl (stores_commit_of_ne _ hkind _ _)
  | _ => exact .inl rfl

end World

end GameFleet
