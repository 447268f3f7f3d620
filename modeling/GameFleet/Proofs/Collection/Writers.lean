import GameFleet.Proofs.Pass.Duties

/-!
# What becomes of a collection

What is stored under a key is what it was before, or what a request has written there
(`World.stored_after`). What a task has noted was stored at some moment (`Notes.Sound`), so a
task that writes what it makes of an object it was shown has to have been shown the object that
is stored, or it is refused (`World.eq_of_past`). What was stored at some moment and is stored
later was not written in between (`World.stored_of_later`).
-/

namespace GameFleet

namespace World

variable {w v : World} {kind : Kind} {key : Key} {found : Option kind.Obj} {a : kind.Obj}

theorem past_of_cached (h : w.Serves (.cached kind key) (.ok found) v) (ha : a ∈ found.toList) :
    w.Past kind a := by
  cases h with
  | harmless h => exact h.elim
  | cached h => exact (h a (Option.mem_toList.1 ha)).2

theorem eq_get?_of_get (h : w.Serves (.get kind key) (.ok found) v) :
    found = (w.stores kind).get? key := by
  cases h with
  | harmless h => exact h.elim
  | get => rfl

theorem past_of_get (hw : w.Recorded) (h : w.Serves (.get kind key) (.ok found) v)
    (ha : a ∈ found.toList) : w.Past kind a :=
  past_of_get? hw ((eq_get?_of_get h).symm.trans (Option.mem_toList.1 ha))

end World

/-! ## Notes -/

/-- What is noted was stored at some moment. -/
structure Notes.Sound (s : Notes) (w : World) : Prop where
  looked : ∀ c ∈ s.looked, w.Past .collection c
  got : ∀ c ∈ s.got, w.Past .collection c
  servers : ∀ g ∈ s.servers, w.Past .gameServer g

namespace Notes

variable {w v : World} {s : Notes}

theorem sound_empty (w : World) : empty.Sound w :=
  ⟨fun c hc => (by cases hc), fun c hc => (by cases hc), fun g hg => (by cases hg)⟩

theorem Sound.mono (h : s.Sound w) (hlogs : ∀ kind, w.logs kind <+: v.logs kind) : s.Sound v :=
  ⟨fun c hc => (h.looked c hc).mono (hlogs _), fun c hc => (h.got c hc).mono (hlogs _),
    fun g hg => (h.servers g hg).mono (hlogs _)⟩

/-- What a request is answered with was stored at some moment. -/
theorem Sound.served (h : s.Sound w) (hw : w.Recorded) {request : Request}
    {answer : request.Answer} (hserves : w.Serves request answer v) :
    (s.after request answer).Sound v := by
  have hshown : (s.after request answer).Sound w := by
    unfold after
    split
    · refine ⟨fun c hc => ?_, h.got, h.servers⟩
      exact (List.mem_append.1 hc).elim (h.looked c) (World.past_of_cached hserves)
    · refine ⟨h.looked, fun c hc => ?_, h.servers⟩
      exact (List.mem_append.1 hc).elim (h.got c) (World.past_of_get hw hserves)
    · refine ⟨h.looked, h.got, fun g hg => ?_⟩
      exact (List.mem_append.1 hg).elim (h.servers g) (World.past_of_cached hserves)
    · refine ⟨h.looked, h.got, fun g hg => ?_⟩
      exact (List.mem_append.1 hg).elim (h.servers g) (World.past_of_get hw hserves)
    · exact ⟨h.looked, h.got, h.servers⟩
    · exact h
  exact hshown.mono hserves.logs

end Notes

/-! ## Stored objects -/

namespace World

variable {w v : World} {kind : Kind} {key : Key} {a : kind.Obj}

/-- What is stored under a key when a request was served : the same as before, or what the
request has written there. -/
theorem stored_after (hw : w.Recorded) (kind : Kind) (key : Key) {request : Request}
    {answer : request.Answer} (h : w.Serves request answer v) :
    (v.stores kind).get? key = (w.stores kind).get? key ∨
      (∃ a birth, request = .create kind a ∧ Resource.key a = key ∧
        (w.stores kind).get? key = none ∧
        (v.stores kind).get? key = some ((w.stores kind).newborn birth a)) ∨
      (∃ a old, request = .update kind a ∧ Resource.key a = key ∧
        (w.stores kind).get? key = some old ∧ Resource.version a = Resource.version old ∧
        (v.stores kind).get? key = some ((w.stores kind).successor old a)) ∨
      (request = .delete kind key ∧ (v.stores kind).get? key = none) := by
  cases h with
  | @create other birth a c s h =>
    by_cases hkind : kind = other
    · subst hkind
      obtain ⟨hnone, rfl, rfl⟩ := Store.create_eq_ok h
      rw [stores_commit, Store.get?_commit, Change.object, Store.key_newborn]
      by_cases hkey : Resource.key a = key
      · rw [if_pos hkey]
        exact .inr (.inl ⟨a, birth, rfl, hkey, hkey ▸ hnone, rfl⟩)
      · rw [if_neg hkey]
        exact .inl rfl
    · rw [stores_commit_of_ne _ hkind]
      exact .inl rfl
  | @update other a c s h =>
    by_cases hkind : kind = other
    · subst hkind
      obtain ⟨old, hold, hversion, rfl, rfl⟩ := Store.update_eq_ok h
      rw [stores_commit, Store.get?_commit, Change.object, Store.key_successor]
      by_cases hkey : Resource.key a = key
      · rw [if_pos hkey]
        exact .inr (.inr (.inl ⟨a, old, rfl, hkey, hkey ▸ hold, hversion.symm, rfl⟩))
      · rw [if_neg hkey]
        exact .inl rfl
    · rw [stores_commit_of_ne _ hkind]
      exact .inl rfl
  | @delete other k c s h =>
    by_cases hkind : kind = other
    · subst hkind
      obtain ⟨old, hold, rfl, rfl⟩ := Store.delete_eq_ok (hw _).sound h
      rw [stores_commit, Store.get?_commit, Change.object, (hw _).sound.key_eq hold]
      by_cases hkey : k = key
      · rw [if_pos hkey]
        exact .inr (.inr (.inr ⟨by rw [hkey], rfl⟩))
      · rw [if_neg hkey]
        exact .inl rfl
    · rw [stores_commit_of_ne _ hkind]
      exact .inl rfl
  | _ => exact .inl rfl

/-- What may happen to an object that is stored when a request is served : nothing, that it is
replaced by an update which carries its version, or that it is deleted. -/
theorem stored_cases (hw : w.Recorded) (ha : (w.stores kind).get? key = some a)
    {request : Request} {answer : request.Answer} (h : w.Serves request answer v) :
    (v.stores kind).get? key = some a ∨
      (∃ b, request = .update kind b ∧ Resource.key b = key ∧
        Resource.version b = Resource.version a ∧
        (v.stores kind).get? key = some ((w.stores kind).successor a b)) ∨
      request = .delete kind key := by
  rcases stored_after hw kind key h with hsame | ⟨_, _, -, -, hnone, -⟩ |
    ⟨b, old, hreq, hkey, hold, hversion, hv⟩ | ⟨hreq, -⟩
  · exact .inl (hsame.trans ha)
  · rw [ha] at hnone
    cases hnone
  · obtain rfl : a = old := Option.some.inj (ha.symm.trans hold)
    exact .inr (.inl ⟨b, hreq, hkey, hversion, hv⟩)
  · exact .inr (.inr hreq)

/-- What was stored at some moment and is stored later was stored all the time. -/
theorem stored_of_later (hw : w.Recorded) (hv : v.Recorded) (hlogs : w.logs kind <+: v.logs kind)
    (hpast : w.Past kind a) (ha : (v.stores kind).get? (Resource.key a) = some a) :
    (w.stores kind).get? (Resource.key a) = some a := by
  obtain ⟨n, hn, hget⟩ := hpast
  obtain ⟨more, hmore⟩ := hlogs
  have hle : (w.logs kind).length ≤ (v.logs kind).length := by
    rw [← hmore, List.length_append]
    omega
  have hthen : (Store.past (v.logs kind) n).get? (Resource.key a) = some a := by
    rw [← hmore, Store.past_append _ hn, hget]
  rw [← (hv kind).past_eq] at ha
  -- A change in between would have given it another version.
  have hunchanged : ¬Store.Changed (w.logs kind) (Resource.key a) n (w.logs kind).length := by
    rintro ⟨i, c, hni, hi, hc, hkey⟩
    refine (Store.unchanged_of_version_eq (hv kind).legal (hn.trans hle) le_rfl hthen ha rfl).2
      ⟨i, c, hni, hi.trans_le hle, ?_, hkey⟩
    rw [← hmore, List.getElem?_append_left hi, hc]
  rw [← (hw kind).past_eq, Store.get?_past_of_unchanged hn le_rfl hunchanged, hget]

end World

end GameFleet
