import Mathlib.Data.Nat.Digits.Lemmas

/-!
# Runs of decimal digits

What a reader finds that takes the digits off the front of a text: all of a run that
ends where the text ends or goes on with another character (`takeWhile_run`,
`dropWhile_run`). The digits of a number are such a run, and begin with a zero only if
the number is zero.
-/

namespace GameFleet.Digits

/-- The text does not begin with a digit. -/
def Past (cs : List Char) : Prop := ∀ c ∈ cs.head?, c.isDigit = false

theorem past_nil : Past [] := by simp [Past]

theorem past_cons {c : Char} (cs : List Char) (h : c.isDigit = false) : Past (c :: cs) := by
  simpa [Past] using h

variable {ds rest : List Char}

theorem takeWhile_of_past (h : Past rest) : rest.takeWhile Char.isDigit = [] := by
  cases rest with
  | nil => rfl
  | cons c cs => simp [h c rfl]

theorem dropWhile_of_past (h : Past rest) : rest.dropWhile Char.isDigit = rest := by
  cases rest with
  | nil => rfl
  | cons c cs => simp [h c rfl]

theorem takeWhile_run (hds : ∀ c ∈ ds, c.isDigit = true) (h : Past rest) :
    (ds ++ rest).takeWhile Char.isDigit = ds := by
  rw [List.takeWhile_append_of_pos hds, takeWhile_of_past h, List.append_nil]

theorem dropWhile_run (hds : ∀ c ∈ ds, c.isDigit = true) (h : Past rest) :
    (ds ++ rest).dropWhile Char.isDigit = rest := by
  rw [List.dropWhile_append_of_pos hds, dropWhile_of_past h]

theorem isDigit_of_mem {n : Nat} {c : Char} (h : c ∈ Nat.toDigits 10 n) : c.isDigit = true :=
  Nat.isDigit_of_mem_toDigits (by decide) (by decide) h

theorem exists_eq_cons (n : Nat) :
    ∃ d ds, Nat.toDigits 10 n = d :: ds ∧ d.isDigit = true := by
  obtain ⟨d, ds, hds⟩ := List.exists_cons_of_ne_nil (Nat.toDigits_ne_nil (n := n) (b := 10))
  have hmem : d ∈ Nat.toDigits 10 n := hds ▸ List.mem_cons_self
  exact ⟨d, ds, hds, isDigit_of_mem hmem⟩

/-- A number whose digits begin with a zero is written with that zero alone. -/
theorem eq_nil_of_leading_zero (n : Nat) {ds : List Char} (h : Nat.toDigits 10 n = '0' :: ds) :
    ds = [] := by
  induction n using Nat.strong_induction_on generalizing ds with
  | _ n ih =>
    rcases Nat.lt_or_ge n 10 with hn | hn
    · rw [Nat.toDigits_of_lt_base hn] at h
      exact (List.cons.inj h).2.symm
    · rw [Nat.toDigits_of_base_le (by decide) hn] at h
      obtain ⟨c, cs, hcs, -⟩ := exists_eq_cons (n / 10)
      rw [hcs, List.cons_append] at h
      obtain ⟨rfl, -⟩ := List.cons.inj h
      -- The tenth of the number would be zero.
      have hnil := ih (n / 10) (by omega) hcs
      have hzero : n / 10 = 0 := by
        rw [← Nat.ofDigitChars_ten_toDigits (n := n / 10), hcs, hnil]
        rfl
      omega

end GameFleet.Digits
