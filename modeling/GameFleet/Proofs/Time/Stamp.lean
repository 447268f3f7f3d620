import GameFleet.Time.Stamp
import GameFleet.Proofs.Digits

/-!
# Timestamps read back

Every day has a date (`exists_dateOf`), and the digits of dates, times of day and
fractions are read back as the numbers that they were written from (`readCount_padded`,
`readFraction_writeFraction`). So an instant is what its timestamp is read as
(`Instant.Ordinary.ofStampLenient?_toStamp`), if its year has four digits and it lies in
no leap second, and a timestamp without a fraction is read as the start of its second
(`Instant.Ordinary.ofStamp?_toStampSeconds`).
-/

namespace GameFleet.Time

/-! ## Dates -/

/-- The days of a year counted from March are dates, the last of 366 if the year that is
counted from January by then is a leap year. -/
theorem exists_dateInYear {year day : Int} (h0 : 0 ≤ day) (h1 : day ≤ 365)
    (hleap : day = 365 → leapYear (year + 1) = true) : (dateInYear year day).exists = true := by
  unfold dateInYear Date.exists monthLength
  simp only [Bool.and_eq_true, decide_eq_true_eq]
  split
  -- March to December.
  next h =>
    dsimp only
    rw [if_neg (by omega)]
    refine ⟨⟨⟨?_, ?_⟩, ?_⟩, ?_⟩
    · omega
    · omega
    · omega
    · split <;> omega
  -- January and February, which belong to the year after.
  next h =>
    dsimp only
    refine ⟨⟨⟨?_, ?_⟩, ?_⟩, ?_⟩
    · omega
    · omega
    · omega
    · split
      · split
        · omega
        · next hnot =>
          have : day ≠ 365 := fun hday => hnot (hleap hday)
          omega
      · split <;> omega

theorem leapYear_of_mod (year : Int) (h4 : year % 4 = 0) (h : year % 100 ≠ 0 ∨ year % 400 = 0) :
    leapYear year = true := by
  simpa [leapYear, h4] using h

/-- Every day has a date. -/
theorem exists_dateOf (number : Int) : (dateOf number).exists = true := by
  unfold dateOf
  dsimp only
  generalize hc : (number + 719468) / 146097 = c
  generalize hd : (number + 719468) % 146097 = d
  have hd0 : 0 ≤ d ∧ d < 146097 := by omega
  generalize he : min (d / 36524) 3 = e
  have he0 : 0 ≤ e ∧ e ≤ 3 := by omega
  generalize hf : (d - e * 36524) / 1461 = f
  have hf0 : 0 ≤ f ∧ f ≤ 24 := by omega
  generalize hy : min ((d - e * 36524 - f * 1461) / 365) 3 = y
  have hy0 : 0 ≤ y ∧ y ≤ 3 := by omega
  refine exists_dateInYear (by omega) (by omega) fun hlast => leapYear_of_mod _ ?_ ?_
  · omega
  · omega

theorem Date.bounds_of_exists {d : Date} (h : d.exists = true) :
    1 ≤ d.month ∧ d.month ≤ 12 ∧ 1 ≤ d.day ∧ d.day ≤ 31 := by
  have hlength : monthLength d.year d.month ≤ 31 := by
    unfold monthLength
    split
    · split <;> decide
    · split <;> decide
  simp only [Date.exists, Bool.and_eq_true, decide_eq_true_eq] at h
  omega

theorem Instant.secondOfDay_bounds (t : Instant) : 0 ≤ t.secondOfDay ∧ t.secondOfDay < 86400 := by
  unfold secondOfDay secondsPerDay
  omega

/-! ## Counts -/

open Digits (Past past_cons)

theorem isDigit_of_mem_padded {width n : Nat} {c : Char} (h : c ∈ padded width n) :
    c.isDigit = true := by
  rcases List.mem_append.1 h with h | h
  · rw [(List.mem_replicate.1 h).2]
    rfl
  · exact Digits.isDigit_of_mem h

theorem length_padded {width n : Nat} (hwidth : 0 < width) (hn : n < 10 ^ width) :
    (padded width n).length = width := by
  have hle := (Nat.length_toDigits_le_iff (by decide) hwidth).2 hn
  simp only [padded, List.length_append, List.length_replicate]
  omega

theorem ofDigitChars_padded (width n : Nat) : Nat.ofDigitChars 10 (padded width n) 0 = n := by
  simp [padded, Nat.ofDigitChars_append, Nat.ofDigitChars_replicate_zero,
    Nat.ofDigitChars_ten_toDigits]

/-- The first `most` characters of padded digits begin with all of the digits. -/
theorem takeWhile_take_padded {width most n : Nat} {rest : List Char} (hn : n < 10 ^ width)
    (hrest : Past rest) (hpos : 0 < width) (hmost : width ≤ most) :
    ((padded width n ++ rest).take most).takeWhile Char.isDigit = padded width n := by
  have hcut : Past (rest.take (most - (padded width n).length)) := by
    cases rest with
    | nil => rw [List.take_nil]; exact Digits.past_nil
    | cons c cs =>
      cases most - (padded width n).length with
      | zero => exact Digits.past_nil
      | succ k => exact past_cons _ (hrest c rfl)
  rw [List.take_append, List.take_of_length_le (by rw [length_padded hpos hn]; exact hmost),
    Digits.takeWhile_run (fun _ => isDigit_of_mem_padded) hcut]

/-- A number is read back from its padded digits. -/
theorem readCount_padded {least most width n : Nat} {rest : List Char} (hn : n < 10 ^ width)
    (hrest : Past rest) (hpos : 0 < width) (hleast : least ≤ width) (hmost : width ≤ most) :
    readCount least most (padded width n ++ rest) = some (n, rest) := by
  simp only [readCount, takeWhile_take_padded hn hrest hpos hmost]
  rw [if_neg (by rw [length_padded hpos hn]; omega), ofDigitChars_padded, List.drop_left]

theorem readFraction_group {width k : Nat} {rest : List Char} (hk : k < 10 ^ width)
    (hrest : Past rest) (hpos : 0 < width) (hwidth : width ≤ 9) :
    readFraction ('.' :: (padded width k ++ rest)) = some (k * 10 ^ (9 - width), rest) := by
  have hlen := length_padded hpos hk
  have hne : (padded width k).isEmpty = false := by
    rw [List.isEmpty_eq_false_iff, ← List.length_pos_iff]
    omega
  simp only [readFraction, takeWhile_take_padded hk hrest hpos hwidth, hne]
  simp [ofDigitChars_padded, hlen, Digits.dropWhile_of_past hrest]

/-- The nanoseconds are read back from the digits of the fraction, however many there are. -/
theorem readFraction_writeFraction {nano : Nat} (hnano : nano < nanosPerSecond) {rest : List Char}
    (hrest : Past rest) (hpoint : ∀ cs, rest ≠ '.' :: cs) :
    readFraction (writeFraction nano ++ rest) = some (nano, rest) := by
  have hbound : nano < 10 ^ 9 := hnano
  unfold writeFraction
  split
  next hzero =>
    subst hzero
    rw [List.nil_append, readFraction]
    exact hpoint
  next =>
    split
    next hmillis =>
      rw [List.cons_append, readFraction_group (by omega) hrest (by decide) (by decide)]
      congr 2
      omega
    next =>
      split
      next hmicros =>
        rw [List.cons_append, readFraction_group (by omega) hrest (by decide) (by decide)]
        congr 2
        omega
      next =>
        rw [List.cons_append, readFraction_group hbound hrest (by decide) (by decide)]
        congr 2
        omega

/-! ## Instants -/

namespace Instant

/-- The instant has a year of four digits and lies in no leap second. -/
structure Ordinary (t : Instant) : Prop where
  year_nonneg : 0 ≤ (dateOf t.day).year
  year_le : (dateOf t.day).year ≤ 9999
  not_leaping : t.leaping = false

/-- The instant of the date and the time of day that an instant has. -/
theorem Ordinary.ofLocal? {t : Instant} (h : t.Ordinary) :
    Instant.ofLocal? (dateOf t.day) (t.secondOfDay / 3600).toNat (t.secondOfDay / 60 % 60).toNat
      (t.secondOfDay % 60).toNat t.nano 0 = some t := by
  have hsecond := t.secondOfDay_bounds
  have hleap : ((t.secondOfDay % 60).toNat == 60) = false := by
    rw [beq_eq_false_iff_ne]
    omega
  have hsum : (dateOf t.day).number * secondsPerDay + (t.secondOfDay / 3600).toNat * 3600 +
      (t.secondOfDay / 60 % 60).toNat * 60 + (t.secondOfDay % 60).toNat - 0 = t.second := by
    rw [number_dateOf]
    have hday : t.day * 86400 + t.secondOfDay = t.second := by
      unfold day secondOfDay secondsPerDay
      omega
    unfold secondsPerDay
    omega
  have hyear := h.year_nonneg
  have hyear' := h.year_le
  have heta : (⟨t.second, t.nano⟩ : Instant) = t := rfl
  simp only [Instant.ofLocal?, hleap, Bool.false_eq_true, if_false, hsum, Nat.add_zero,
    exists_dateOf, heta]
  rw [if_pos]
  simp [yearInRange, secondsPerDay]
  omega

theorem Ordinary.nano_lt {t : Instant} (h : t.Ordinary) : t.nano < nanosPerSecond := by
  simpa [Instant.leaping] using h.not_leaping

theorem Ordinary.truncated_eq {t : Instant} (h : t.Ordinary) : t.truncated = ⟨t.second, 0⟩ := by
  rw [truncated, Nat.div_eq_of_lt h.nano_lt, Nat.zero_mul]

/-- No part of the date of an ordinary instant is negative. -/
theorem Ordinary.date_eq {t : Instant} (h : t.Ordinary) :
    (⟨(dateOf t.day).year.toNat, (dateOf t.day).month.toNat, (dateOf t.day).day.toNat⟩ : Date) =
      dateOf t.day := by
  have hyear := h.year_nonneg
  obtain ⟨hmonth, -, hday, -⟩ := Date.bounds_of_exists (exists_dateOf t.day)
  rw [Int.toNat_of_nonneg hyear, Int.toNat_of_nonneg (by omega), Int.toNat_of_nonneg (by omega)]

/-- The second of an ordinary instant begins with an ordinary instant. -/
theorem Ordinary.truncated {t : Instant} (h : t.Ordinary) : t.truncated.Ordinary where
  year_nonneg := h.year_nonneg
  year_le := h.year_le
  not_leaping := by rw [h.truncated_eq]; rfl

end Instant

/-! ## Lenient timestamps -/

theorem blank_of_isDigit {c : Char} (h : c.isDigit = true) : Text.blank c = false := by
  simp only [Char.isDigit, Bool.and_eq_true, decide_eq_true_eq, ge_iff_le, UInt32.le_iff_toNat_le] at h
  obtain ⟨hlow, hhigh⟩ := h
  have hlow : 48 ≤ c.toNat := hlow
  have hhigh : c.toNat ≤ 57 := hhigh
  simp only [Text.blank, Bool.or_eq_false_iff, Bool.and_eq_false_iff, decide_eq_false_iff_not,
    beq_eq_false_iff_ne]
  omega

theorem trimLeft_cons {c : Char} (cs : List Char) (h : Text.blank c = false) :
    Text.trimLeft (c :: cs) = c :: cs := by
  simp [Text.trimLeft, h]

/-- Padded digits begin with a digit. -/
theorem exists_padded_eq_cons (width n : Nat) :
    ∃ c cs, padded width n = c :: cs ∧ c.isDigit = true := by
  obtain ⟨c, cs, hcs⟩ := List.exists_cons_of_ne_nil
    (show padded width n ≠ [] by simp [padded, Nat.toDigits_ne_nil])
  have hmem : c ∈ padded width n := hcs ▸ List.mem_cons_self
  exact ⟨c, cs, hcs, isDigit_of_mem_padded hmem⟩

theorem trimLeft_padded (width n : Nat) (rest : List Char) :
    Text.trimLeft (padded width n ++ rest) = padded width n ++ rest := by
  obtain ⟨c, cs, hcs, hc⟩ := exists_padded_eq_cons width n
  rw [hcs, List.cons_append, trimLeft_cons _ (blank_of_isDigit hc)]

theorem readPart_padded {n : Nat} (hn : n < 100) {rest : List Char} (hrest : Past rest) :
    readPart (padded 2 n ++ rest) = some (n, rest) := by
  rw [readPart, trimLeft_padded]
  exact readCount_padded hn hrest (by decide) (by decide) (by decide)

theorem readYear_padded {n : Nat} (hn : n < 10000) {rest : List Char} (hrest : Past rest) :
    readYear (padded 4 n ++ rest) = some ((n : Int), rest) := by
  have hread : readCount 1 4 (padded 4 n ++ rest) = some (n, rest) :=
    readCount_padded hn hrest (by decide) (by decide) (by decide)
  obtain ⟨c, cs, hcs, hc⟩ := exists_padded_eq_cons 4 n
  rw [readYear, trimLeft_padded]
  split
  case h_1 heq =>
    rw [hcs] at heq
    obtain ⟨rfl, -⟩ := List.cons.inj heq
    exact absurd hc (by decide)
  case h_2 heq =>
    rw [hcs] at heq
    obtain ⟨rfl, -⟩ := List.cons.inj heq
    exact absurd hc (by decide)
  case h_3 => rw [hread, Option.map_some]

theorem readMark_cons {c : Char} (cs : List Char) (h : Text.blank c = false) :
    readMark c (c :: cs) = some cs := by
  rw [readMark, trimLeft_cons cs h, readChar, if_pos rfl]

/-- The clock of an ordinary instant shows its second, and the year without a sign. -/
theorem Instant.Ordinary.writeClock_append {t : Instant} (h : t.Ordinary) (rest : List Char) :
    writeClock t ++ rest = padded 4 (dateOf t.day).year.toNat ++
      '-' :: (padded 2 (dateOf t.day).month.toNat ++
      '-' :: (padded 2 (dateOf t.day).day.toNat ++
      'T' :: (padded 2 (t.secondOfDay / 3600).toNat ++
      ':' :: (padded 2 (t.secondOfDay / 60 % 60).toNat ++
      ':' :: (padded 2 (t.secondOfDay % 60).toNat ++ rest))))) := by
  have hyear : writeYear (dateOf t.day).year = padded 4 (dateOf t.day).year.toNat :=
    if_pos ⟨h.year_nonneg, h.year_le⟩
  simp only [writeClock, hyear, h.not_leaping, Bool.false_eq_true, if_false, Int.add_zero,
    List.append_assoc, List.cons_append]

theorem past_fraction (nano : Nat) (cs : List Char) : Past (writeFraction nano ++ 'Z' :: cs) := by
  unfold writeFraction
  split
  · exact past_cons _ rfl
  · split
    · exact past_cons _ rfl
    · split <;> exact past_cons _ rfl

/-- A timestamp of an ordinary instant is read back as the instant. -/
theorem Instant.Ordinary.ofStampLenient?_toStamp {t : Instant} (h : t.Ordinary) :
    ofStampLenient? t.toStamp = some t := by
  have hyear := h.year_nonneg
  have hyear' := h.year_le
  obtain ⟨hmonth, hmonth', hday, hday'⟩ := Date.bounds_of_exists (exists_dateOf t.day)
  obtain ⟨hsecond, hsecond'⟩ := t.secondOfDay_bounds
  have hnano := h.nano_lt
  have hdash : Text.blank '-' = false := rfl
  have hcolon : Text.blank ':' = false := rfl
  unfold ofStampLenient?
  rw [Instant.toStamp, String.toList_ofList, Nat.mod_eq_of_lt hnano, List.append_assoc,
    h.writeClock_append]
  -- The date, from the year to the letter after the day.
  refine Option.bind_eq_some_iff.2 ⟨_, readYear_padded (by omega) (past_cons _ rfl), ?_⟩
  refine Option.bind_eq_some_iff.2 ⟨_, readMark_cons _ hdash, ?_⟩
  refine Option.bind_eq_some_iff.2 ⟨_, readPart_padded (by omega) (past_cons _ rfl), ?_⟩
  refine Option.bind_eq_some_iff.2 ⟨_, readMark_cons _ hdash, ?_⟩
  refine Option.bind_eq_some_iff.2 ⟨_, readPart_padded (by omega) (past_cons _ rfl), ?_⟩
  refine Option.bind_eq_some_iff.2 ⟨_, rfl, ?_⟩
  -- The time of day, with the fraction of its second.
  refine Option.bind_eq_some_iff.2 ⟨_, readPart_padded (by omega) (past_cons _ rfl), ?_⟩
  refine Option.bind_eq_some_iff.2 ⟨_, readMark_cons _ hcolon, ?_⟩
  refine Option.bind_eq_some_iff.2 ⟨_, readPart_padded (by omega) (past_cons _ rfl), ?_⟩
  refine Option.bind_eq_some_iff.2 ⟨_, readMark_cons _ hcolon, ?_⟩
  refine Option.bind_eq_some_iff.2 ⟨_, readPart_padded (by omega) (past_fraction _ _), ?_⟩
  refine Option.bind_eq_some_iff.2
    ⟨_, readFraction_writeFraction hnano (past_cons _ rfl) (by simp), ?_⟩
  refine Option.bind_eq_some_iff.2 ⟨_, rfl, ?_⟩
  show Instant.ofLocal? ⟨_, _, _⟩ _ _ _ _ _ = _
  rw [h.date_eq, h.ofLocal?]

/-! ## Timestamps of whole seconds -/

/-- A timestamp of the second of an ordinary instant is read back as the start of that
second. -/
theorem Instant.Ordinary.ofStamp?_toStampSeconds {t : Instant} (h : t.Ordinary) :
    ofStamp? t.toStampSeconds = some t.truncated := by
  have hyear := h.year_nonneg
  have hyear' := h.year_le
  obtain ⟨hmonth, hmonth', hday, hday'⟩ := Date.bounds_of_exists (exists_dateOf t.day)
  obtain ⟨hsecond, hsecond'⟩ := t.secondOfDay_bounds
  have hread {width n : Nat} {rest : List Char} (hn : n < 10 ^ width) (hrest : Past rest)
      (hpos : 0 < width) : readCount width width (padded width n ++ rest) = some (n, rest) :=
    readCount_padded hn hrest hpos (le_refl _) (le_refl _)
  unfold ofStamp?
  rw [Instant.toStampSeconds, String.toList_ofList, h.writeClock_append]
  -- The date, from the year to the letter after the day.
  refine Option.bind_eq_some_iff.2 ⟨_, hread (by omega) (past_cons _ rfl) (by decide), ?_⟩
  refine Option.bind_eq_some_iff.2 ⟨_, rfl, ?_⟩
  refine Option.bind_eq_some_iff.2 ⟨_, hread (by omega) (past_cons _ rfl) (by decide), ?_⟩
  refine Option.bind_eq_some_iff.2 ⟨_, rfl, ?_⟩
  refine Option.bind_eq_some_iff.2 ⟨_, hread (by omega) (past_cons _ rfl) (by decide), ?_⟩
  refine Option.bind_eq_some_iff.2 ⟨_, rfl, ?_⟩
  -- The time of day, and no fraction of its second.
  refine Option.bind_eq_some_iff.2 ⟨_, hread (by omega) (past_cons _ rfl) (by decide), ?_⟩
  refine Option.bind_eq_some_iff.2 ⟨_, rfl, ?_⟩
  refine Option.bind_eq_some_iff.2 ⟨_, hread (by omega) (past_cons _ rfl) (by decide), ?_⟩
  refine Option.bind_eq_some_iff.2 ⟨_, rfl, ?_⟩
  refine Option.bind_eq_some_iff.2 ⟨_, hread (by omega) (past_cons _ rfl) (by decide), ?_⟩
  refine Option.bind_eq_some_iff.2 ⟨_, rfl, ?_⟩
  refine Option.bind_eq_some_iff.2 ⟨_, rfl, ?_⟩
  show Instant.ofLocal? ⟨_, _, _⟩ _ _ _ _ _ = _
  have hlocal := h.truncated.ofLocal?
  rw [h.truncated_eq] at hlocal ⊢
  rw [h.date_eq]
  exact hlocal

end GameFleet.Time
