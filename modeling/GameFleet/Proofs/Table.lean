import GameFleet.Table
import Mathlib.Data.List.Basic

/-!
# The values of a table

What an insertion or an erasure does to the values of a table, apart from their order
(`Table.values_insert_perm`, `Table.values_perm_of_find?`). What is seen of the values stays the
same, in its order, when of what comes as much is seen as of what goes
(`Table.filterMap_values_insert`, `Table.filterMap_values_erase`).
-/

namespace GameFleet

variable {κ ν β : Type} [Ordered κ]

namespace Entries

theorem erase_eq_self {k : κ} {es : List (κ × ν)} (h : ∀ e ∈ es, e.1 ≠ k) : erase k es = es := by
  rw [erase, List.filter_eq_self]
  intro e he
  simpa using h e he

theorem erase_cons_of_ne {k : κ} {e : κ × ν} (es : List (κ × ν)) (h : e.1 ≠ k) :
    erase k (e :: es) = e :: erase k es := by
  simp [erase, h]

theorem erase_cons_self {k : κ} {v : ν} {es : List (κ × ν)} (h : Ascending ((k, v) :: es)) :
    erase k ((k, v) :: es) = es := by
  have hlt := (List.pairwise_cons.1 h).1
  have herase : erase k es = es :=
    erase_eq_self fun e he heq => Ordered.lt_irrefl k (by simpa [heq] using hlt e he)
  rw [← herase]
  simp [erase]

theorem insert_perm (k : κ) (v : ν) {es : List (κ × ν)} (h : Ascending es) :
    (insert k v es).Perm ((k, v) :: erase k es) := by
  induction es with
  | nil => simp [insert, erase]
  | cons e es ih =>
    obtain ⟨j, w⟩ := e
    obtain ⟨hlt, htail⟩ := List.pairwise_cons.1 h
    rw [insert]
    split
    · next hk =>
      have hne : ∀ e ∈ (j, w) :: es, e.1 ≠ k := by
        intro e he heq
        rcases List.mem_cons.1 he with rfl | he
        · exact Ordered.lt_irrefl k (heq ▸ hk)
        · have hke : k < e.1 := Ordered.lt_trans hk (hlt e he)
          exact Ordered.lt_irrefl k (by rwa [heq] at hke)
      rw [erase_eq_self hne]
    · split
      · next heq =>
        subst heq
        rw [erase_cons_self h]
      · next hne =>
        rw [erase_cons_of_ne es hne]
        exact ((ih htail).cons _).trans (List.Perm.swap _ _ _)

theorem perm_of_find? {k : κ} {v : ν} {es : List (κ × ν)} (hasc : Ascending es)
    (h : find? k es = some v) : es.Perm ((k, v) :: erase k es) := by
  induction es with
  | nil => cases h
  | cons e es ih =>
    obtain ⟨j, w⟩ := e
    rw [find?] at h
    split at h
    · next heq =>
      subst heq
      cases h
      rw [erase_cons_self hasc]
    · next hne =>
      rw [erase_cons_of_ne es hne]
      exact ((ih (List.pairwise_cons.1 hasc).2 h).cons _).trans (List.Perm.swap _ _ _)

theorem find?_of_forall_ne {k : κ} {es : List (κ × ν)} (h : ∀ e ∈ es, e.1 ≠ k) :
    find? k es = none := by
  cases hfind : find? k es with
  | none => rfl
  | some v => exact absurd rfl (h _ (mem_of_find? hfind))

theorem filterMap_insert {f : ν → Option β} {k : κ} {v : ν} {es : List (κ × ν)}
    (hasc : Ascending es) (h : (find? k es).bind f = f v) :
    (insert k v es).filterMap (fun e => f e.2) = es.filterMap (fun e => f e.2) := by
  induction es with
  | nil => exact List.filterMap_cons_none (f := fun e : κ × ν => f e.2) h.symm
  | cons e es ih =>
    obtain ⟨j, w⟩ := e
    obtain ⟨hlt, htail⟩ := List.pairwise_cons.1 hasc
    rw [insert]
    split
    · next hk =>
      have hne : ∀ e ∈ (j, w) :: es, e.1 ≠ k := by
        rintro e he rfl
        rcases List.mem_cons.1 he with rfl | he
        · exact Ordered.lt_irrefl _ hk
        · exact Ordered.lt_irrefl _ (Ordered.lt_trans hk (hlt e he))
      rw [find?_of_forall_ne hne] at h
      exact List.filterMap_cons_none h.symm
    · split
      · next heq =>
        rw [find?, if_pos heq, Option.bind_some] at h
        rw [List.filterMap_cons, List.filterMap_cons, h]
      · next hne =>
        rw [find?, if_neg hne] at h
        rw [List.filterMap_cons, List.filterMap_cons, ih htail h]

theorem filterMap_erase {f : ν → Option β} {k : κ} {es : List (κ × ν)} (hasc : Ascending es)
    (h : (find? k es).bind f = none) :
    (erase k es).filterMap (fun e => f e.2) = es.filterMap (fun e => f e.2) := by
  induction es with
  | nil => rfl
  | cons e es ih =>
    obtain ⟨j, w⟩ := e
    rw [find?] at h
    split at h
    · next heq =>
      subst heq
      have hnone : f w = none := h
      rw [erase_cons_self hasc, List.filterMap_cons, hnone]
    · next hne =>
      rw [erase_cons_of_ne es hne, List.filterMap_cons, List.filterMap_cons,
        ih (List.pairwise_cons.1 hasc).2 h]

/-- A key above all others goes to the end. -/
theorem insert_eq_append {k : κ} (v : ν) {es : List (κ × ν)} (h : ∀ e ∈ es, e.1 < k) :
    insert k v es = es ++ [(k, v)] := by
  induction es with
  | nil => rfl
  | cons e es ih =>
    obtain ⟨j, w⟩ := e
    have hj : j < k := h _ List.mem_cons_self
    have hkj : ¬k < j := fun hkj => Ordered.lt_irrefl k (Ordered.lt_trans hkj hj)
    have hne : j ≠ k := fun heq => Ordered.lt_irrefl k (heq ▸ hj)
    rw [insert, if_neg hkj, if_neg hne, ih fun e he => h e (List.mem_cons_of_mem _ he),
      List.cons_append]

end Entries

namespace Table

theorem values_insert_perm (t : Table κ ν) (k : κ) (v : ν) :
    (t.insert k v).values.Perm (v :: (t.erase k).values) :=
  (Entries.insert_perm k v t.ascending).map Prod.snd

theorem values_perm_of_find? {t : Table κ ν} {k : κ} {v : ν} (h : t.find? k = some v) :
    t.values.Perm (v :: (t.erase k).values) :=
  (Entries.perm_of_find? t.ascending h).map Prod.snd

theorem erase_of_find?_eq_none {t : Table κ ν} {k : κ} (h : t.find? k = none) : t.erase k = t := by
  refine ext_find fun j => ?_
  rw [find?_erase]
  split
  · next hk => rw [← hk, h]
  · rfl

theorem filterMap_values_insert {f : ν → Option β} {t : Table κ ν} {k : κ} {v : ν}
    (h : (t.find? k).bind f = f v) : (t.insert k v).values.filterMap f = t.values.filterMap f := by
  rw [values, values, List.filterMap_map, List.filterMap_map]
  exact Entries.filterMap_insert t.ascending h

theorem filterMap_values_erase {f : ν → Option β} {t : Table κ ν} {k : κ}
    (h : (t.find? k).bind f = none) : (t.erase k).values.filterMap f = t.values.filterMap f := by
  rw [values, values, List.filterMap_map, List.filterMap_map]
  exact Entries.filterMap_erase t.ascending h

theorem mem_keys {t : Table κ ν} {k : κ} : k ∈ t.keys ↔ (t.find? k).isSome := by
  constructor
  · intro hk
    obtain ⟨e, he, rfl⟩ := List.mem_map.1 hk
    rw [find?_eq_some_iff.2 he]
    rfl
  · intro hk
    obtain ⟨v, hv⟩ := Option.isSome_iff_exists.1 hk
    exact List.mem_map_of_mem (f := Prod.fst) (find?_eq_some_iff.1 hv)

theorem nodup_keys (t : Table κ ν) : t.keys.Nodup := by
  rw [keys, List.Nodup, List.pairwise_map]
  refine t.ascending.imp fun hlt heq => ?_
  exact Ordered.lt_irrefl _ (heq ▸ hlt)

theorem entries_foldl_insert {t : Table κ ν} {es : List (κ × ν)}
    (h : Entries.Ascending (t.entries ++ es)) :
    (es.foldl (fun t e => t.insert e.1 e.2) t).entries = t.entries ++ es := by
  induction es generalizing t with
  | nil => simp
  | cons e es ih =>
    have hlast : ∀ e' ∈ t.entries, e'.1 < e.1 := fun e' he' =>
      (List.pairwise_append.1 h).2.2 e' he' e List.mem_cons_self
    have hinsert : (t.insert e.1 e.2).entries = t.entries ++ [e] :=
      Entries.insert_eq_append e.2 hlast
    rw [List.foldl_cons, ih, hinsert, List.append_assoc, List.singleton_append]
    rwa [hinsert, List.append_assoc, List.singleton_append]

/-- A table is entered from its own entries. -/
theorem ofList_entries (t : Table κ ν) : ofList t.entries = t := by
  have h : (ofList t.entries).entries = t.entries := entries_foldl_insert t.ascending
  cases t
  exact (Table.mk.injEq ..).mpr h

theorem eq_empty_of_isEmpty {t : Table κ ν} (h : t.isEmpty = true) : t = empty := by
  obtain ⟨es, hes⟩ := t
  cases List.isEmpty_iff.1 h
  rfl

end Table

end GameFleet
