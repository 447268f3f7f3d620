import GameFleet.Resource.Key

/-!
# Keys and their texts

A key that is shown can be read back if and only if it is plain (`Key.Plain`) : it has a name, and
there is no slash in its parts. A text shows a key if and only if it is legible (`Key.Legible`) : it
has no slash and is not empty, or it has one slash and something after it. Every text that shows a
key shows a plain one (`Key.ofText_eq_ok_iff`), which is shown as the text again, unless the text
begins with a slash.

Work queues carry keys as texts, so two plain keys are never taken for each other
(`Key.texts_of_keys`).
-/

namespace GameFleet.Key

/-- The key has a name, and its parts have no slash. -/
structure Plain (k : Key) : Prop where
  named : k.name ≠ ""
  ns : '/' ∉ k.ns.toList
  name : '/' ∉ k.name.toList

/-- The text has no slash and is not empty, or it has one slash and something after it. -/
def Legible (s : String) : Prop :=
  s.toList.count '/' = 0 ∧ s ≠ "" ∨ s.toList.count '/' = 1 ∧ s.toList.getLast? ≠ some '/'

/-! ## Pieces of texts -/

theorem pieces_eq_splitOn (cs : List Char) : pieces cs = cs.splitOn '/' := by
  induction cs with
  | nil => rfl
  | cons c cs ih =>
    rw [pieces, List.splitOn_cons_eq_if_modifyHead, ih]
    simp only [beq_iff_eq]
    split
    · rfl
    · cases h : cs.splitOn '/' with
      | nil => exact absurd h (List.splitOn_ne_nil _ _)
      | cons p ps => rfl

/-- A text has no slash, or one, or more. -/
theorem slash_cases (s : String) : '/' ∉ s.toList ∨
    (∃ ns name : String, s = ns ++ "/" ++ name ∧ '/' ∉ ns.toList ∧ '/' ∉ name.toList) ∨
    ∃ as bs, s.toList = as ++ '/' :: bs ∧ '/' ∉ as ∧ '/' ∈ bs := by
  by_cases hmem : '/' ∈ s.toList
  · obtain ⟨as, bs, hs, has⟩ := List.eq_append_cons_of_mem hmem
    by_cases hbs : '/' ∈ bs
    · exact .inr (.inr ⟨as, bs, hs, has, hbs⟩)
    · refine .inr (.inl ⟨.ofList as, .ofList bs, ?_, by simpa using has, by simpa using hbs⟩)
      rw [← String.toList_inj, hs]
      simp
  · exact .inl hmem

/-- What has no slash is a name. -/
theorem ofText_name {s : String} (h : '/' ∉ s.toList) :
    ofText s = if s = "" then .error .empty else .ok ⟨"", s⟩ := by
  unfold ofText
  rw [pieces_eq_splitOn, List.splitOn_eq_singleton h]
  split
  · rfl
  · next hne =>
    have hlist : s.toList ≠ [] := by simpa using hne
    simp [hlist]

/-- What has one slash is a namespace and a name. -/
theorem ofText_slash {ns name : String} (hns : '/' ∉ ns.toList) (hname : '/' ∉ name.toList) :
    ofText (ns ++ "/" ++ name) =
      if name = "" then .error (.emptyName (ns ++ "/" ++ name)) else .ok ⟨ns, name⟩ := by
  have hlist : (ns ++ "/" ++ name).toList = ns.toList ++ '/' :: name.toList := by simp
  have hne : ns ++ "/" ++ name ≠ "" := by
    intro h
    rw [h] at hlist
    simp at hlist
  unfold ofText
  rw [pieces_eq_splitOn, hlist, List.splitOn_append_cons_self_of_not_mem hns,
    List.splitOn_eq_singleton hname, if_neg hne]
  simp

/-- What has more than one slash is no key. -/
theorem ofText_slashes {s : String} {as bs : List Char} (hs : s.toList = as ++ '/' :: bs)
    (has : '/' ∉ as) (hbs : '/' ∈ bs) : ofText s = .error (.malformed s) := by
  obtain ⟨cs, ds, rfl, hcs⟩ := List.eq_append_cons_of_mem hbs
  have hne : s ≠ "" := by
    rintro rfl
    simp at hs
  unfold ofText
  rw [pieces_eq_splitOn, hs, List.splitOn_append_cons_self_of_not_mem has,
    List.splitOn_append_cons_self_of_not_mem hcs, if_neg hne]
  cases h : ds.splitOn '/' with
  | nil => exact absurd h (List.splitOn_ne_nil _ _)
  | cons p ps => rfl

/-! ## Reading keys -/

/-- A text shows a plain key, as its name alone or as both parts with a slash between them. -/
theorem ofText_eq_ok_iff {s : String} {k : Key} :
    ofText s = .ok k ↔ k.Plain ∧ (k.ns = "" ∧ s = k.name ∨ s = k.ns ++ "/" ++ k.name) := by
  constructor
  · intro h
    rcases slash_cases s with hs | ⟨ns, name, rfl, hns, hname⟩ | ⟨as, bs, hs, has, hbs⟩
    · rw [ofText_name hs] at h
      split at h
      · cases h
      · next hne =>
        cases h
        exact ⟨⟨hne, by simp, hs⟩, .inl ⟨rfl, rfl⟩⟩
    · rw [ofText_slash hns hname] at h
      split at h
      · cases h
      · next hne =>
        cases h
        exact ⟨⟨hne, hns, hname⟩, .inr rfl⟩
    · rw [ofText_slashes hs has hbs] at h
      cases h
  · obtain ⟨ns, name⟩ := k
    rintro ⟨⟨hnamed, hns, hname⟩, ⟨rfl, rfl⟩ | rfl⟩
    · rw [ofText_name hname, if_neg hnamed]
    · rw [ofText_slash hns hname, if_neg hnamed]

theorem ofText_toText_iff {k : Key} : ofText k.toText = .ok k ↔ k.Plain := by
  rw [ofText_eq_ok_iff, toText]
  split
  · next hns => simp [hns]
  · simp

/-- Nothing comes after a slash if and only if the text ends with it. -/
theorem getLast?_slash {cs : List Char} (h : '/' ∉ cs) :
    ('/' :: cs).getLast? = some '/' ↔ cs = [] := by
  rcases List.eq_nil_or_concat cs with rfl | ⟨cs, c, rfl⟩
  · simp
  · rw [List.concat_eq_append] at h ⊢
    have hc : c ≠ '/' := by
      rintro rfl
      simp at h
    rw [← List.cons_append, List.getLast?_concat]
    simp [hc]

theorem exists_ofText_iff {s : String} : (∃ k, ofText s = .ok k) ↔ Legible s := by
  unfold Legible
  rcases slash_cases s with hs | ⟨ns, name, rfl, hns, hname⟩ | ⟨as, bs, hs, has, hbs⟩
  · rw [ofText_name hs, List.count_eq_zero.2 hs]
    by_cases hne : s = "" <;> simp [hne]
  · rw [ofText_slash hns hname]
    have hcount : (ns ++ "/" ++ name).toList.count '/' = 1 := by
      simp [List.count_eq_zero.2 hns, List.count_eq_zero.2 hname]
    rw [hcount]
    by_cases hne : name = "" <;> simp [hne, getLast?_slash hname]
  · have hcount : 1 < s.toList.count '/' := by
      rw [hs, List.count_append, List.count_cons_self, List.count_eq_zero.2 has]
      have := List.count_pos_iff.2 hbs
      omega
    rw [ofText_slashes hs has hbs]
    refine iff_of_false (by simp) ?_
    rintro (⟨hzero, -⟩ | ⟨hone, -⟩) <;> omega

/-- A text that shows a key is the text of the key, unless it begins with a slash. -/
theorem toText_eq_iff {s : String} {k : Key} (h : ofText s = .ok k) :
    k.toText = s ↔ s.toList.head? ≠ some '/' := by
  obtain ⟨hplain, ⟨hns, rfl⟩ | rfl⟩ := ofText_eq_ok_iff.1 h
  · have hhead : k.name.toList.head? ≠ some '/' := fun hhead =>
      hplain.name (List.mem_of_head? hhead)
    simp [toText, hns, hhead]
  · by_cases hns : k.ns = ""
    · have hne : k.name ≠ "/" ++ k.name := by
        rw [Ne, ← String.toList_inj, String.toList_append]
        simp
      simp [toText, hns, hne]
    · have hhead : (k.ns ++ "/" ++ k.name).toList.head? ≠ some '/' := by
        obtain ⟨c, cs, hcs⟩ := List.exists_cons_of_ne_nil (l := k.ns.toList) (by simpa using hns)
        have hc : c ≠ '/' := by
          rintro rfl
          exact hplain.ns (hcs ▸ List.mem_cons_self)
        simpa [hcs] using hc
      exact iff_of_true (if_neg hns) hhead

/-- Plain keys that are shown alike are one key. -/
theorem Plain.eq_of_toText {k k' : Key} (h : k.Plain) (h' : k'.Plain)
    (htext : k.toText = k'.toText) : k = k' := by
  have hk := ofText_toText_iff.2 h
  rw [htext, ofText_toText_iff.2 h'] at hk
  cases hk
  rfl

/-- A key is read back from its text if and only if it is plain. A text shows a key if and only if
it is legible, and then the key is read back from its own text, which is the text that it was read
from unless that begins with a slash. No two plain keys are shown alike. -/
theorem texts_of_keys (k k' : Key) (s : String) :
    (ofText k.toText = .ok k ↔ k.Plain) ∧
      ((∃ shown, ofText s = .ok shown) ↔ Legible s) ∧
      (∀ shown, ofText s = .ok shown → ofText shown.toText = .ok shown ∧
        (shown.toText = s ↔ s.toList.head? ≠ some '/')) ∧
      (k.Plain → k'.Plain → k ≠ k' → k.toText ≠ k'.toText) := by
  refine ⟨ofText_toText_iff, exists_ofText_iff, fun shown h => ?_, fun h h' hne htext => ?_⟩
  · exact ⟨ofText_toText_iff.2 (ofText_eq_ok_iff.1 h).1, toText_eq_iff h⟩
  · exact hne (h.eq_of_toText h' htext)

/-- A slash at the beginning is not shown again, and an object of a namespace is not taken for one
of the whole cluster. -/
theorem texts_of_keys_node :
    ofText "/node-1" = .ok ⟨"", "node-1"⟩ ∧
      (ofText (toText ⟨"", "node-1"⟩) = .ok ⟨"", "node-1"⟩ ∧
        (toText ⟨"", "node-1"⟩ = "/node-1" ↔ "/node-1".toList.head? ≠ some '/')) ∧
      Plain ⟨"default", "node-1"⟩ ∧ Plain ⟨"", "node-1"⟩ ∧
        toText ⟨"default", "node-1"⟩ ≠ toText ⟨"", "node-1"⟩ := by
  have hspaced : Plain ⟨"default", "node-1"⟩ := ⟨by decide, by decide, by decide⟩
  have hplain : Plain ⟨"", "node-1"⟩ := ⟨by decide, by decide, by decide⟩
  have hread : ofText "/node-1" = .ok ⟨"", "node-1"⟩ :=
    ofText_eq_ok_iff.2 ⟨hplain, .inr (by decide)⟩
  have htexts := texts_of_keys ⟨"default", "node-1"⟩ ⟨"", "node-1"⟩ "/node-1"
  exact ⟨hread, htexts.2.2.1 _ hread, hspaced, hplain, htexts.2.2.2 hspaced hplain (by decide)⟩

end GameFleet.Key
