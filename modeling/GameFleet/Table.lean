/-!
# Tables in key order

A `Table` keeps each key once and its entries in ascending order of their keys, so
two tables that answer every look-up alike are equal (`Table.ext_find`). Label sets,
stores and caches are tables: what is listed from them comes in key order.

`Table.find?_insert` and `Table.find?_erase` say what each change does to a look-up.
-/

namespace GameFleet

/-- Keys with a strict total order that can be decided. -/
class Ordered (κ : Type) extends LT κ where
  decideLt : DecidableRel (LT.lt : κ → κ → Prop)
  decideEq : DecidableEq κ
  lt_irrefl : ∀ a : κ, ¬a < a
  lt_trans : ∀ {a b c : κ}, a < b → b < c → a < c
  lt_or_eq_or_gt : ∀ a b : κ, a < b ∨ a = b ∨ b < a

attribute [reducible, instance] Ordered.decideLt Ordered.decideEq

/-- Texts compare by their code points, which is the order of their UTF-8 bytes. -/
instance : Ordered String where
  decideLt := fun a b => inferInstanceAs (Decidable (a < b))
  decideEq := inferInstance
  lt_irrefl := String.lt_irrefl
  lt_trans := String.lt_trans
  lt_or_eq_or_gt a b := by
    by_cases hab : a < b
    · exact Or.inl hab
    · by_cases hba : b < a
      · exact Or.inr (Or.inr hba)
      · exact Or.inr (Or.inl (String.le_antisymm (String.not_lt.1 hba) (String.not_lt.1 hab)))

/-! ## Entries in ascending order -/

namespace Entries

variable {κ ν : Type} [Ordered κ]

/-- The value kept under `k`. -/
def find? (k : κ) : List (κ × ν) → Option ν
  | [] => none
  | (k', v) :: rest => if k' = k then some v else find? k rest

/-- Puts `v` under `k`, in its place, instead of what was there. -/
def insert (k : κ) (v : ν) : List (κ × ν) → List (κ × ν)
  | [] => [(k, v)]
  | (k', v') :: rest =>
    if k < k' then (k, v) :: (k', v') :: rest
    else if k' = k then (k, v) :: rest
    else (k', v') :: insert k v rest

/-- Takes the entry of `k` away. -/
def erase (k : κ) (es : List (κ × ν)) : List (κ × ν) :=
  es.filter fun e => decide (e.1 ≠ k)

/-- Keys strictly increase along the list. -/
def Ascending (es : List (κ × ν)) : Prop :=
  es.Pairwise fun a b => a.1 < b.1

theorem mem_insert {k : κ} {v : ν} {e : κ × ν} {es : List (κ × ν)}
    (h : e ∈ insert k v es) : e = (k, v) ∨ e ∈ es := by
  induction es with
  | nil => simpa [insert] using h
  | cons hd tl ih =>
    obtain ⟨k', v'⟩ := hd
    rw [insert] at h
    split at h
    · simpa using h
    · split at h
      · rcases List.mem_cons.1 h with h | h
        · exact Or.inl h
        · exact Or.inr (List.mem_cons_of_mem _ h)
      · rcases List.mem_cons.1 h with h | h
        · exact Or.inr (h ▸ List.mem_cons_self)
        · exact (ih h).imp_right (List.mem_cons_of_mem _)

theorem ascending_insert {k : κ} {v : ν} {es : List (κ × ν)} (h : Ascending es) :
    Ascending (insert k v es) := by
  induction es with
  | nil => simp [insert, Ascending]
  | cons hd tl ih =>
    obtain ⟨k', v'⟩ := hd
    obtain ⟨hlt, htl⟩ := List.pairwise_cons.1 h
    rw [insert]
    split
    · next hk =>
      refine List.pairwise_cons.2 ⟨fun e he => ?_, h⟩
      rcases List.mem_cons.1 he with rfl | he
      · exact hk
      · exact Ordered.lt_trans hk (hlt e he)
    · next hk =>
      split
      · next heq =>
        subst heq
        exact List.pairwise_cons.2 ⟨hlt, htl⟩
      · next hne =>
        refine List.pairwise_cons.2 ⟨fun e he => ?_, ih htl⟩
        rcases mem_insert he with rfl | he
        · rcases Ordered.lt_or_eq_or_gt k' k with hlt' | heq | hgt
          · exact hlt'
          · exact absurd heq hne
          · exact absurd hgt hk
        · exact hlt e he

theorem ascending_erase {k : κ} {es : List (κ × ν)} (h : Ascending es) :
    Ascending (erase k es) :=
  h.sublist List.filter_sublist

theorem find?_insert (k k' : κ) (v : ν) (es : List (κ × ν)) :
    find? k' (insert k v es) = if k = k' then some v else find? k' es := by
  induction es with
  | nil => simp [insert, find?]
  | cons hd tl ih =>
    obtain ⟨j, w⟩ := hd
    rw [insert]
    split
    · simp [find?]
    · split
      · next heq =>
        subst heq
        by_cases hk : j = k' <;> simp [find?, hk]
      · next hne =>
        by_cases hj : j = k'
        · subst hj
          simp [find?, Ne.symm hne]
        · simp [find?, hj, ih]

theorem find?_erase (k k' : κ) (es : List (κ × ν)) :
    find? k' (erase k es) = if k = k' then none else find? k' es := by
  induction es with
  | nil => simp [erase, find?]
  | cons hd tl ih =>
    obtain ⟨j, w⟩ := hd
    unfold erase at ih ⊢
    by_cases hj : j = k
    · subst hj
      simp only [List.filter_cons, ne_eq, not_true_eq_false, decide_false, Bool.false_eq_true,
        if_false, ih]
      by_cases hk : j = k' <;> simp [find?, hk]
    · simp only [List.filter_cons, ne_eq, hj, not_false_eq_true, decide_true, if_true, find?, ih]
      by_cases hk : j = k'
      · subst hk
        simp [Ne.symm hj]
      · simp [hk]

theorem mem_of_find? {k : κ} {v : ν} {es : List (κ × ν)} (h : find? k es = some v) :
    (k, v) ∈ es := by
  induction es with
  | nil => simp [find?] at h
  | cons hd tl ih =>
    obtain ⟨j, w⟩ := hd
    rw [find?] at h
    split at h
    · next hj =>
      subst hj
      simp at h
      simp [h]
    · exact List.mem_cons_of_mem _ (ih h)

theorem find?_of_mem {k : κ} {v : ν} {es : List (κ × ν)} (hasc : Ascending es)
    (h : (k, v) ∈ es) : find? k es = some v := by
  induction es with
  | nil => simp at h
  | cons hd tl ih =>
    obtain ⟨j, w⟩ := hd
    obtain ⟨hlt, htl⟩ := List.pairwise_cons.1 hasc
    rw [find?]
    rcases List.mem_cons.1 h with heq | hmem
    · simp only [Prod.mk.injEq] at heq
      simp [heq]
    · have hj : j ≠ k := fun heq => Ordered.lt_irrefl k (heq ▸ hlt _ hmem)
      simp [hj, ih htl hmem]

theorem eq_of_find?_eq {es fs : List (κ × ν)} (hes : Ascending es) (hfs : Ascending fs)
    (h : ∀ k, find? k es = find? k fs) : es = fs := by
  induction es generalizing fs with
  | nil =>
    cases fs with
    | nil => rfl
    | cons hd tl =>
      have := h hd.1
      simp [find?] at this
  | cons hd tl ih =>
    cases fs with
    | nil =>
      have := h hd.1
      simp [find?] at this
    | cons hd' tl' =>
      obtain ⟨hlt, htl⟩ := List.pairwise_cons.1 hes
      obtain ⟨hlt', htl'⟩ := List.pairwise_cons.1 hfs
      have hmem : (hd.1, hd.2) ∈ hd' :: tl' :=
        mem_of_find? (by rw [← h]; simp [find?])
      have hmem' : (hd'.1, hd'.2) ∈ hd :: tl :=
        mem_of_find? (by rw [h]; simp [find?])
      have hhd : hd = hd' := by
        rcases List.mem_cons.1 hmem with heq | hm
        · exact heq
        · rcases List.mem_cons.1 hmem' with heq' | hm'
          · exact heq'.symm
          · exact absurd (Ordered.lt_trans (hlt _ hm') (hlt' _ hm)) (Ordered.lt_irrefl _)
      subst hhd
      refine congrArg _ (ih htl htl' fun k => ?_)
      have hk := h k
      by_cases heq : hd.1 = k
      · subst heq
        have hnone : ∀ es : List (κ × ν), (∀ e ∈ es, hd.1 < e.1) → find? hd.1 es = none := by
          intro es hes
          cases hf : find? hd.1 es with
          | none => rfl
          | some v => exact absurd (hes _ (mem_of_find? hf)) (Ordered.lt_irrefl _)
        rw [hnone tl hlt, hnone tl' hlt']
      · simpa [find?, heq] using hk

end Entries

/-! ## Tables -/

/-- A finite map whose entries stand in ascending order of their keys. -/
structure Table (κ ν : Type) [Ordered κ] where
  entries : List (κ × ν)
  ascending : Entries.Ascending entries

namespace Table

variable {κ ν : Type} [Ordered κ]

instance [DecidableEq ν] : DecidableEq (Table κ ν) := fun s t =>
  if h : s.entries = t.entries then
    isTrue (by cases s; cases t; cases h; rfl)
  else
    isFalse fun e => h (e ▸ rfl)

/-- The table with no entries. -/
def empty : Table κ ν := ⟨[], List.Pairwise.nil⟩

instance : Inhabited (Table κ ν) := ⟨empty⟩

/-- The value under `k`. -/
def find? (t : Table κ ν) (k : κ) : Option ν := Entries.find? k t.entries

/-- Whether there is an entry for `k`. -/
def contains (t : Table κ ν) (k : κ) : Bool := (t.find? k).isSome

/-- The table with `v` under `k`. -/
def insert (t : Table κ ν) (k : κ) (v : ν) : Table κ ν :=
  ⟨Entries.insert k v t.entries, Entries.ascending_insert t.ascending⟩

/-- The table without an entry for `k`. -/
def erase (t : Table κ ν) (k : κ) : Table κ ν :=
  ⟨Entries.erase k t.entries, Entries.ascending_erase t.ascending⟩

/-- Enters the pairs one after the other, so that of two with one key the later stays. -/
def ofList (es : List (κ × ν)) : Table κ ν :=
  es.foldl (fun t e => t.insert e.1 e.2) empty

/-- How often each key occurs. -/
def tally (ks : List κ) : Table κ Nat :=
  ks.foldl (fun t k => t.insert k ((t.find? k).getD 0 + 1)) empty

/-- The values, in the order of their keys. -/
def values (t : Table κ ν) : List ν := t.entries.map Prod.snd

/-- The keys, in ascending order. -/
def keys (t : Table κ ν) : List κ := t.entries.map Prod.fst

def size (t : Table κ ν) : Nat := t.entries.length

def isEmpty (t : Table κ ν) : Bool := t.entries.isEmpty

@[simp] theorem find?_empty (k : κ) : (empty : Table κ ν).find? k = none := rfl

theorem find?_insert (t : Table κ ν) (k k' : κ) (v : ν) :
    (t.insert k v).find? k' = if k = k' then some v else t.find? k' :=
  Entries.find?_insert k k' v t.entries

theorem find?_erase (t : Table κ ν) (k k' : κ) :
    (t.erase k).find? k' = if k = k' then none else t.find? k' :=
  Entries.find?_erase k k' t.entries

theorem find?_eq_some_iff {t : Table κ ν} {k : κ} {v : ν} :
    t.find? k = some v ↔ (k, v) ∈ t.entries :=
  ⟨Entries.mem_of_find?, Entries.find?_of_mem t.ascending⟩

/-- Tables with the same look-ups are the same table. -/
theorem ext_find {s t : Table κ ν} (h : ∀ k, s.find? k = t.find? k) : s = t := by
  have hst := Entries.eq_of_find?_eq s.ascending t.ascending h
  cases s
  cases t
  cases hst
  rfl

end Table

end GameFleet
