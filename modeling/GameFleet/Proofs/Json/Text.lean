import GameFleet.Json.Document
import GameFleet.Proofs.Digits

/-!
# JSON text read back

The text of a value is read as the document of the value (`Document.ofText_render`), as
long as its numbers are naturals of 64 bits (`Json.Plain`). A quoted text is read back
character by character, each from its escape. For arrays and objects the induction goes
over the value with any text after it that may stand behind a value (`Closing`), and
with the length of the value for its fuel: every step into an array or object, and every
step to the next item, passes over a character.
-/

namespace GameFleet

namespace Document

/-! ## Quoted texts -/

theorem hexValue?_digitChar {n : Nat} (h : n < 16) : hexValue? (Nat.digitChar n) = some n :=
  (by decide : ∀ n < 16, hexValue? (Nat.digitChar n) = some n) n h

/-- The escape of a control character states its number. -/
theorem hexUnit_control {n : Nat} (h : n < 0x20) :
    hexUnit '0' '0' (Nat.digitChar (n / 16)) (Nat.digitChar (n % 16)) = .ok n := by
  have hzero : hexValue? '0' = some 0 := rfl
  simp only [hexUnit, hzero, hexValue?_digitChar (show n / 16 < 16 by omega),
    hexValue?_digitChar (show n % 16 < 16 by omega)]
  congr 1
  omega

/-- A character is written as a backslash and a letter, as its number, or as itself. -/
theorem escape_cases (c : Char) :
    (∃ e, Json.escape c = ['\\', e] ∧ unescape? e = some c) ∨
    (c.toNat < 0x20 ∧ Json.escape c =
      ['\\', 'u', '0', '0', Nat.digitChar (c.toNat / 16), Nat.digitChar (c.toNat % 16)]) ∨
    (c ≠ '"' ∧ c ≠ '\\' ∧ ¬c.toNat < 0x20 ∧ Json.escape c = [c]) := by
  unfold Json.escape
  split
  case h_8 hquote hback _ _ _ _ _ =>
    split
    case isTrue hc => exact .inr (.inl ⟨hc, rfl⟩)
    case isFalse hc => exact .inr (.inr ⟨hquote, hback, hc, rfl⟩)
  all_goals exact .inl ⟨_, rfl, rfl⟩

section

variable {e c : Char} (cs : List Char)

theorem readText_letter (h : unescape? e = some c) :
    readText ('\\' :: e :: cs) = (readText cs).map fun r => (c :: r.1, r.2) := by
  have hu : e ≠ 'u' := by rintro rfl; cases h
  rw [readText, h]
  · cases readText cs <;> rfl
  · exact fun _ _ _ _ _ hu' _ => hu hu'
  · exact hu

theorem skipText_letter (h : unescape? e = some c) : skipText ('\\' :: e :: cs) = skipText cs := by
  have hu : e ≠ 'u' := by rintro rfl; cases h
  rw [skipText, h]
  · rfl
  · exact fun _ _ _ _ _ hu' _ => hu hu'
  · exact hu

theorem readText_control (h : c.toNat < 0x20) :
    readText ('\\' :: 'u' :: '0' :: '0' :: Nat.digitChar (c.toNat / 16) ::
      Nat.digitChar (c.toNat % 16) :: cs) = (readText cs).map fun r => (c :: r.1, r.2) := by
  have hlow : isLow c.toNat = false := by simp [isLow]; omega
  have hhigh : isHigh c.toNat = false := by simp [isHigh]; omega
  simp only [readText, hexUnit_control h, bind, Except.bind, hlow, hhigh, Bool.false_eq_true,
    if_false, Char.ofNat_toNat]
  cases readText cs <;> rfl

theorem readText_plain (hquote : c ≠ '"') (hback : c ≠ '\\') (h : ¬c.toNat < 0x20) :
    readText (c :: cs) = (readText cs).map fun r => (c :: r.1, r.2) := by
  rw [readText, if_neg h]
  · cases readText cs <;> rfl
  · exact hquote
  all_goals
    intros
    contradiction

theorem skipText_plain (hquote : c ≠ '"') (hback : c ≠ '\\') (h : ¬c.toNat < 0x20) :
    skipText (c :: cs) = skipText cs := by
  rw [skipText, if_neg h]
  · exact hquote
  all_goals
    intros
    contradiction

end

theorem readText_escape (c : Char) (cs : List Char) :
    readText (Json.escape c ++ cs) = (readText cs).map fun r => (c :: r.1, r.2) := by
  rcases escape_cases c with ⟨e, hescape, he⟩ | ⟨hc, hescape⟩ | ⟨hquote, hback, hc, hescape⟩
  · rw [hescape]
    exact readText_letter cs he
  · rw [hescape]
    exact readText_control cs hc
  · rw [hescape]
    exact readText_plain cs hquote hback hc

theorem skipText_escape (c : Char) (cs : List Char) :
    skipText (Json.escape c ++ cs) = skipText cs := by
  rcases escape_cases c with ⟨e, hescape, he⟩ | ⟨hc, hescape⟩ | ⟨hquote, hback, hc, hescape⟩
  · rw [hescape]
    exact skipText_letter cs he
  · simp only [hescape, List.cons_append, List.nil_append, skipText, hexUnit_control hc]
  · rw [hescape]
    exact skipText_plain cs hquote hback hc

theorem readText_escaped (cs rest : List Char) :
    readText (cs.flatMap Json.escape ++ '"' :: rest) = .ok (cs, rest) := by
  induction cs with
  | nil => simp [readText]
  | cons c cs ih => rw [List.flatMap_cons, List.append_assoc, readText_escape, ih]; rfl

theorem skipText_escaped (cs rest : List Char) :
    skipText (cs.flatMap Json.escape ++ '"' :: rest) = .ok rest := by
  induction cs with
  | nil => simp [skipText]
  | cons c cs ih => rw [List.flatMap_cons, List.append_assoc, skipText_escape, ih]

theorem textOf_escaped (s : String) (rest : List Char) :
    textOf (s.toList.flatMap Json.escape ++ '"' :: rest) = .text (.ok s) := by
  simp [textOf, readText_escaped, Except.map]

/-! ## Numbers -/

/-- What may follow a value inside an array or object. -/
def Closing (cs : List Char) : Prop := ∀ c ∈ cs.head?, c = ',' ∨ c = ']' ∨ c = '\x7d'

theorem closing_nil : Closing [] := by simp [Closing]

theorem Closing.past {cs : List Char} (h : Closing cs) : Digits.Past cs := by
  intro c hc
  rcases h c hc with rfl | rfl | rfl <;> rfl

theorem Closing.readFraction {cs : List Char} (h : Closing cs) :
    readFraction cs = .ok (none, cs) := by
  rw [Document.readFraction]
  rintro cs rfl
  exact absurd (h '.' rfl) (by decide)

theorem Closing.readPower {cs : List Char} (h : Closing cs) :
    readPower cs = .ok (none, cs) := by
  unfold Document.readPower
  split
  · exact absurd (h 'e' rfl) (by decide)
  · exact absurd (h 'E' rfl) (by decide)
  · rfl

theorem readWhole_toDigits (n : Nat) {rest : List Char} (h : Digits.Past rest) :
    readWhole (Nat.toDigits 10 n ++ rest) = .ok (Nat.toDigits 10 n, rest) := by
  have hdigits : readDigits (Nat.toDigits 10 n ++ rest) = (Nat.toDigits 10 n, rest) := by
    rw [readDigits, Digits.takeWhile_run (fun _ => Digits.isDigit_of_mem) h,
      Digits.dropWhile_run (fun _ => Digits.isDigit_of_mem) h]
  have hone : readDigits1 (Nat.toDigits 10 n ++ rest) = .ok (Nat.toDigits 10 n, rest) := by
    unfold readDigits1
    rw [hdigits]
    split
    case h_1 hnil _ => exact absurd (Prod.mk.inj hnil).1 Nat.toDigits_ne_nil
    case h_2 hnil _ => exact absurd (Prod.mk.inj hnil).1 Nat.toDigits_ne_nil
    case h_3 => rfl
  simp only [readWhole, hone, bind, Except.bind]
  split
  next h => exact absurd (Digits.eq_nil_of_leading_zero n h) (by simp)
  next => rfl

/-- A number of 64 bits is read back from its digits. -/
theorem readNumeral_toDigits {n : Nat} (hn : n < UInt64.size) {rest : List Char}
    (h : Closing rest) : readNumeral (Nat.toDigits 10 n ++ rest) = .ok (.natural n, rest) := by
  obtain ⟨d, ds, hds, hd⟩ := Digits.exists_eq_cons n
  unfold readNumeral
  split
  next minus cs heq =>
    split at heq
    next cs' hminus =>
      rw [hds, List.cons_append] at hminus
      obtain ⟨rfl, -⟩ := List.cons.inj hminus
      exact absurd hd (by decide)
    next =>
      obtain ⟨rfl, rfl⟩ := Prod.mk.inj heq
      simp [readWhole_toDigits n h.past, h.readFraction, h.readPower, bind, Except.bind, numeral, hn,
        Nat.ofDigitChars_ten_toDigits, pure, Except.pure]

end Document

/-! ## Values -/

namespace Json

mutual

/-- The document of a value with the members of an object in the order in which they are
written. -/
def document : Json → Document
  | .null => .null
  | .bool b => .bool b
  | .number n => .number n
  | .text s => .text (.ok s)
  | .array items => .array (documentItems items) none
  | .object members => .object (documentMembers members) none

def documentItems : List Json → List Document
  | [] => []
  | item :: items => document item :: documentItems items

def documentMembers : List (String × Json) → List (Document × Document)
  | [] => []
  | (name, value) :: members => (.text (.ok name), document value) :: documentMembers members

end

theorem documentItems_eq_map (items : List Json) : documentItems items = items.map document := by
  induction items with
  | nil => rfl
  | cons item items ih => rw [documentItems, ih, List.map_cons]

/-- All numbers in the value are naturals of 64 bits. -/
inductive Plain : Json → Prop
  | null : Plain .null
  | bool (b : Bool) : Plain (.bool b)
  | nat {n : Nat} (h : n < UInt64.size) : Plain (.nat n)
  | text (s : String) : Plain (.text s)
  | array {items : List Json} (h : ∀ j ∈ items, Plain j) : Plain (.array items)
  | object {members : List (String × Json)} (h : ∀ m ∈ members, Plain m.2) :
    Plain (.object members)

end Json

namespace Document

open Json

/-- A text that goes on with the value is read as its document. -/
def Reads (j : Json) : Prop :=
  ∀ {fuel : Nat} {rest : List Char}, j.chars.length ≤ fuel → Closing rest →
    readValue fuel (j.chars ++ rest) = (j.document, .ok rest)

theorem skipBlank_cons {c : Char} (cs : List Char) (h : isBlank c = false) :
    skipBlank (c :: cs) = c :: cs := by
  simp [skipBlank, h]

theorem isBlank_of_isDigit {d : Char} (hd : d.isDigit = true) : isBlank d = false := by
  simp only [isBlank, Bool.or_eq_false_iff, beq_eq_false_iff_ne]
  refine ⟨⟨⟨?_, ?_⟩, ?_⟩, ?_⟩ <;> rintro rfl <;> exact absurd hd (by decide)

/-- A value is written without blanks before it, and begins as no array ends. -/
theorem exists_chars_eq_cons {j : Json} (h : j.Plain) :
    ∃ c cs, j.chars = c :: cs ∧ isBlank c = false ∧ c ≠ ']' := by
  cases h with
  | null => exact ⟨_, _, rfl, rfl, by decide⟩
  | bool b => cases b <;> exact ⟨_, _, rfl, rfl, by decide⟩
  | @nat n hn =>
    obtain ⟨d, ds, hds, hd⟩ := Digits.exists_eq_cons n
    exact ⟨d, ds, hds, isBlank_of_isDigit hd, by rintro rfl; exact absurd hd (by decide)⟩
  | text s => exact ⟨_, _, rfl, rfl, by decide⟩
  | @array items h =>
    cases items <;> exact ⟨_, _, rfl, rfl, by decide⟩
  | @object members h =>
    rcases members with _ | ⟨⟨name, value⟩, members⟩ <;> exact ⟨_, _, rfl, rfl, by decide⟩

/-- What begins with a digit is read as a number. -/
theorem readValue_digit {d : Char} (hd : d.isDigit = true) (fuel : Nat) {cs rest : List Char}
    {n : Numeral} (h : readNumeral (d :: cs) = .ok (n, rest)) :
    readValue (fuel + 1) (d :: cs) = (.number n, .ok rest) := by
  rw [readValue, skipBlank_cons cs (isBlank_of_isDigit hd)]
  split
  case h_8 heq =>
    obtain ⟨rfl, rfl⟩ := List.cons.inj heq
    rw [if_pos (.inr hd), h]
  case h_1 heq => cases heq
  all_goals
    next heq =>
      obtain ⟨rfl, -⟩ := List.cons.inj heq
      exact absurd hd (by decide)

theorem reads_nat {n : Nat} (hn : n < UInt64.size) : Reads (.nat n) := by
  intro fuel rest hfuel hrest
  obtain ⟨d, ds, hds, hd⟩ := Digits.exists_eq_cons n
  have hchars : (Json.nat n).chars = d :: ds := hds
  rw [hchars, List.length_cons] at hfuel
  obtain ⟨fuel, rfl⟩ := Nat.exists_eq_add_of_le' (Nat.le_of_add_left_le hfuel)
  have hread := readNumeral_toDigits hn hrest
  rw [hds, List.cons_append] at hread
  rw [hchars, List.cons_append, readValue_digit hd fuel hread]
  rfl

theorem closing_comma (cs : List Char) : Closing (',' :: cs) := by simp [Closing]

theorem closing_bracket (cs : List Char) : Closing (']' :: cs) := by simp [Closing]

theorem closing_brace (cs : List Char) : Closing ('\x7d' :: cs) := by simp [Closing]

section Arrays

variable {j : Json} {items : List Json} {fuel : Nat} {rest : List Char}

theorem readItems_last (hj : Reads j) (hfuel : j.chars.length ≤ fuel) :
    readItems (fuel + 1) (j.chars ++ ']' :: rest) = ([j.document], .ok rest) := by
  rw [readItems, hj hfuel (closing_bracket rest)]
  simp [skipBlank_cons, isBlank]

theorem readItems_next (hj : Reads j) (hfuel : j.chars.length ≤ fuel) :
    readItems (fuel + 1) (j.chars ++ ',' :: rest) =
      (j.document :: (readItems fuel rest).1, (readItems fuel rest).2) := by
  rw [readItems, hj hfuel (closing_comma rest)]
  simp [skipBlank_cons, isBlank]

/-- An array is read on from any of its items. -/
theorem readItems_chars (hj : Reads j) (hitems : ∀ i ∈ items, Reads i)
    (hfuel : j.chars.length + (charsOfItems items).length ≤ fuel) :
    readItems fuel (j.chars ++ (charsOfItems items ++ rest)) =
      (documentItems (j :: items), .ok rest) := by
  induction items generalizing j fuel with
  | nil =>
    rw [charsOfItems, List.length_singleton] at hfuel
    obtain ⟨fuel, rfl⟩ := Nat.exists_eq_add_of_le' (Nat.le_of_add_left_le hfuel)
    exact readItems_last hj (by omega)
  | cons i items ih =>
    simp only [charsOfItems, List.length_append, List.length_cons] at hfuel
    obtain ⟨fuel, rfl⟩ := Nat.exists_eq_add_of_le' (show 1 ≤ fuel by omega)
    have hrest : readItems fuel (i.chars ++ (charsOfItems items ++ rest)) =
        (documentItems (i :: items), .ok rest) :=
      ih (hitems i List.mem_cons_self) (fun i hi => hitems i (List.mem_cons_of_mem _ hi)) (by omega)
    simp only [charsOfItems, List.cons_append, List.append_assoc]
    rw [readItems_next hj (by omega), hrest]
    rfl

theorem reads_array (hplain : ∀ i ∈ items, i.Plain) (hitems : ∀ i ∈ items, Reads i) :
    Reads (.array items) := by
  intro fuel rest hfuel hrest
  cases items with
  | nil =>
    obtain ⟨fuel, rfl⟩ := Nat.exists_eq_add_of_le' (Nat.le_of_add_left_le hfuel)
    rfl
  | cons j items =>
    simp only [chars, List.length_append, List.length_cons] at hfuel
    obtain ⟨fuel, rfl⟩ := Nat.exists_eq_add_of_le' (show 1 ≤ fuel by omega)
    have hread : readItems fuel (j.chars ++ (charsOfItems items ++ rest)) =
        (documentItems (j :: items), .ok rest) :=
      readItems_chars (hitems j List.mem_cons_self)
        (fun i hi => hitems i (List.mem_cons_of_mem _ hi)) (by omega)
    obtain ⟨c, cs, hcs, hblank, hend⟩ := exists_chars_eq_cons (hplain j List.mem_cons_self)
    rw [hcs, List.cons_append] at hread
    have hopen := skipBlank_cons (c := '[') (c :: (cs ++ (charsOfItems items ++ rest))) rfl
    simp [chars, readValue, hopen, hcs, skipBlank_cons _ hblank, hend, hread, endingOf, document]

end Arrays

section Objects

variable {name : String} {j : Json} {members : List (String × Json)} {fuel : Nat}
  {rest : List Char}

theorem readMembers_last (hj : Reads j) (hfuel : j.chars.length ≤ fuel) :
    readMembers (fuel + 1) (renderText name ++ ':' :: (j.chars ++ '\x7d' :: rest)) =
      ([(.text (.ok name), j.document)], .ok rest) := by
  simp [readMembers, renderText, skipBlank_cons, isBlank, textOf_escaped, skipText_escaped,
    hj hfuel (closing_brace rest)]

theorem readMembers_next (hj : Reads j) (hfuel : j.chars.length ≤ fuel) :
    readMembers (fuel + 1) (renderText name ++ ':' :: (j.chars ++ ',' :: rest)) =
      ((.text (.ok name), j.document) :: (readMembers fuel rest).1, (readMembers fuel rest).2) := by
  simp [readMembers, renderText, skipBlank_cons, isBlank, textOf_escaped, skipText_escaped,
    hj hfuel (closing_comma rest)]

/-- An object is read on from any of its members. -/
theorem readMembers_chars (hj : Reads j) (hmembers : ∀ m ∈ members, Reads m.2)
    (hfuel : j.chars.length + (charsOfMembers members).length ≤ fuel) :
    readMembers fuel (renderText name ++ ':' :: (j.chars ++ (charsOfMembers members ++ rest))) =
      (documentMembers ((name, j) :: members), .ok rest) := by
  induction members generalizing name j fuel with
  | nil =>
    rw [charsOfMembers, List.length_singleton] at hfuel
    obtain ⟨fuel, rfl⟩ := Nat.exists_eq_add_of_le' (Nat.le_of_add_left_le hfuel)
    exact readMembers_last hj (by omega)
  | cons m members ih =>
    obtain ⟨name', j'⟩ := m
    simp only [charsOfMembers, List.length_append, List.length_cons] at hfuel
    obtain ⟨fuel, rfl⟩ := Nat.exists_eq_add_of_le' (show 1 ≤ fuel by omega)
    have hj' : Reads j' := hmembers _ List.mem_cons_self
    have hrest : readMembers fuel
        (renderText name' ++ ':' :: (j'.chars ++ (charsOfMembers members ++ rest))) =
          (documentMembers ((name', j') :: members), .ok rest) :=
      ih hj' (fun m hm => hmembers m (List.mem_cons_of_mem _ hm)) (by omega)
    simp only [charsOfMembers, List.cons_append, List.append_assoc]
    rw [readMembers_next hj (by omega), hrest]
    rfl

theorem reads_object (hmembers : ∀ m ∈ members, Reads m.2) : Reads (.object members) := by
  intro fuel rest hfuel hrest
  rcases members with _ | ⟨⟨name, j⟩, members⟩
  · obtain ⟨fuel, rfl⟩ := Nat.exists_eq_add_of_le' (Nat.le_of_add_left_le hfuel)
    rfl
  · simp only [chars, List.length_append, List.length_cons] at hfuel
    obtain ⟨fuel, rfl⟩ := Nat.exists_eq_add_of_le' (show 1 ≤ fuel by omega)
    have hj : Reads j := hmembers _ List.mem_cons_self
    have hread : readMembers fuel
        (renderText name ++ ':' :: (j.chars ++ (charsOfMembers members ++ rest))) =
          (documentMembers ((name, j) :: members), .ok rest) :=
      readMembers_chars hj (fun m hm => hmembers m (List.mem_cons_of_mem _ hm)) (by omega)
    simp [chars, readValue, skipBlank_cons, isBlank, renderText, endingOf, document] at hread ⊢
    simp [hread]

end Objects

theorem reads_of_plain {j : Json} (h : j.Plain) : Reads j := by
  induction h with
  | null =>
    intro fuel rest hfuel hrest
    obtain ⟨fuel, rfl⟩ := Nat.exists_eq_add_of_le' (Nat.le_of_add_left_le hfuel)
    rfl
  | bool b =>
    intro fuel rest hfuel hrest
    cases b <;>
    · obtain ⟨fuel, rfl⟩ := Nat.exists_eq_add_of_le' (Nat.le_of_add_left_le hfuel)
      rfl
  | nat hn => exact reads_nat hn
  | text s =>
    intro fuel rest hfuel hrest
    obtain ⟨fuel, rfl⟩ := Nat.exists_eq_add_of_le' (Nat.le_of_add_left_le hfuel)
    simp [chars, renderText, readValue, skipBlank_cons, isBlank, textOf_escaped, skipText_escaped,
      document]
  | array hplain ih => exact reads_array hplain ih
  | object _ ih => exact reads_object ih

/-- The text of a value is read as the document of the value. -/
theorem ofText_render {j : Json} (h : j.Plain) : ofText j.render = (j.document, .ok []) := by
  have hread : readValue (2 * j.chars.length + 2) (j.chars ++ []) = (j.document, .ok []) :=
    reads_of_plain h (by omega) closing_nil
  rw [List.append_nil] at hread
  rw [ofText, Json.render, String.toList_ofList]
  exact hread

end Document

end GameFleet
