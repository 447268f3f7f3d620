import Mathlib.Data.Nat.Digits.Lemmas
import GameFleet.Uid

/-!
# Identifiers read back

The 32 digits of an identifier state its number (`foldl_digits`), and the hyphens between
them are found where they were put, so an identifier is what its text is read as
(`ofText?_toText`).
-/

namespace GameFleet.Uid

theorem digitValue?_digitChar {n : Nat} (h : n < 16) : digitValue? (Nat.digitChar n) = some n :=
  (by decide : ∀ n < 16, digitValue? (Nat.digitChar n) = some n) n h

theorem length_digits (u : Uid) : u.digits.length = 32 := by
  simp [digits]

/-- The last `k` digits of a number, the first of them first, state the number up to
multiples of `16 ^ k`. -/
theorem foldl_digits (k n : Nat) :
    ((List.range k).map fun i => n / 16 ^ (k - 1 - i) % 16).foldl (fun m d => m * 16 + d) 0 =
      n % 16 ^ k := by
  induction k generalizing n with
  | zero => simp [Nat.mod_one]
  | succ k ih =>
    have hshift : ((List.range k).map fun i => n / 16 ^ (k + 1 - 1 - i) % 16) =
        (List.range k).map fun i => n / 16 / 16 ^ (k - 1 - i) % 16 := by
      refine List.map_congr_left fun i hi => ?_
      have hi := List.mem_range.1 hi
      rw [Nat.div_div_eq_div_mul, ← Nat.pow_succ', show k + 1 - 1 - i = (k - 1 - i).succ by omega]
    rw [List.range_succ, List.map_append, List.foldl_append, hshift, ih (n / 16)]
    simp only [List.map_cons, List.map_nil, List.foldl_cons, List.foldl_nil, Nat.add_sub_cancel,
      Nat.sub_self, Nat.pow_zero, Nat.div_one, Nat.pow_succ']
    rw [Nat.mod_mul, Nat.add_comm, Nat.mul_comm]

theorem mapM_digits (ns : List Nat) (h : ∀ n ∈ ns, n < 16) :
    (ns.map Nat.digitChar).mapM digitValue? = some ns := by
  induction ns with
  | nil => rfl
  | cons n ns ih =>
    rw [List.map_cons, List.mapM_cons, digitValue?_digitChar (h n List.mem_cons_self),
      ih fun n hn => h n (List.mem_cons_of_mem _ hn)]
    rfl

theorem ofDigits?_digits (u : Uid) : ofDigits? u.digits = some u := by
  have hvalues : u.digits.mapM digitValue? =
      some ((List.range 32).map fun i => u.bits.toNat / 16 ^ (32 - 1 - i) % 16) := by
    rw [← mapM_digits, List.map_map]
    · rfl
    · intro n hn
      obtain ⟨i, -, rfl⟩ := List.mem_map.1 hn
      exact Nat.mod_lt _ (by decide)
  rw [ofDigits?, if_pos u.length_digits, hvalues, Option.map_some, foldl_digits,
    Nat.mod_eq_of_lt (show _ < 16 ^ 32 from u.bits.isLt), BitVec.ofNat_toNat, BitVec.setWidth_eq]

/-- The hyphens of an identifier are where they are looked for. -/
theorem withoutHyphens?_hyphenated {a b c d e : List Char} (ha : a.length = 8) (hb : b.length = 4)
    (hc : c.length = 4) (hd : d.length = 4) (he : e.length = 12) :
    withoutHyphens? (a ++ '-' :: b ++ '-' :: c ++ '-' :: d ++ '-' :: e) =
      some (a ++ b ++ c ++ d ++ e) := by
  simp (disch := omega) [withoutHyphens?, List.getElem?_append, List.getElem?_cons_zero,
    List.drop_append, List.drop_of_length_le, ha, hb, hc, hd, he]

theorem take_drop_append_drop (ds : List Char) (n k : Nat) :
    (ds.drop n).take k ++ ds.drop (n + k) = ds.drop n := by
  rw [← List.drop_drop, List.take_append_drop]

theorem withoutHyphens?_toText (u : Uid) : withoutHyphens? u.toText.toList = some u.digits := by
  have hlen := u.length_digits
  rw [toText, String.toList_ofList, withoutHyphens?_hyphenated (by simp [hlen]) (by simp [hlen])
    (by simp [hlen]) (by simp [hlen]) (by simp [hlen])]
  simp only [List.append_assoc, take_drop_append_drop u.digits 16 4,
    take_drop_append_drop u.digits 12 4, take_drop_append_drop u.digits 8 4, List.take_append_drop]

theorem digit_ne_brace {u : Uid} {c : Char} (h : c ∈ u.digits) : c ≠ '\x7b' := by
  obtain ⟨i, -, rfl⟩ := List.mem_map.1 h
  exact (by decide : ∀ n < 16, Nat.digitChar n ≠ '\x7b') _ (Nat.mod_lt _ (by decide))

/-- The text begins with eight digits and a hyphen. -/
theorem take_toText (u : Uid) : u.toText.toList.take 9 = u.digits.take 8 ++ ['-'] := by
  simp [toText, List.take_append, u.length_digits]

/-- An identifier is read back from its text. -/
theorem ofText?_toText (u : Uid) : ofText? u.toText = some u := by
  have hlen : u.toText.toList.length = 36 := by simp [toText, u.length_digits]
  have hstart := take_toText u
  unfold ofText?
  split
  case h_1 cs hcs =>
    -- No digit is a brace.
    rw [hcs, List.take_succ_cons] at hstart
    have hmem : '\x7b' ∈ u.digits.take 8 ++ ['-'] := hstart ▸ List.mem_cons_self
    rcases List.mem_append.1 hmem with h | h
    · exact absurd rfl (digit_ne_brace (List.mem_of_mem_take h))
    · cases List.mem_singleton.1 h
  case h_2 =>
    have hurn : (u.toText.toList.take urn.length).map Char.toLower ≠ urn := by
      intro h
      have hlast := congrArg List.getLast? h
      simp [urn, hstart] at hlast
    rw [if_neg hurn, if_neg (by omega)]
    show (withoutHyphens? u.toText.toList).bind ofDigits? = some u
    rw [withoutHyphens?_toText, Option.bind_some, ofDigits?_digits]

end GameFleet.Uid
