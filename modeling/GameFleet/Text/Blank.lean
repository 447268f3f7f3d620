/-!
# Blank characters

The characters with the White_Space property, and the text left when those at its ends
are taken away. Settings and lenient timestamps are read past them. `Blank` extends the
blanks of the core library, which are ASCII.
-/

namespace GameFleet.Text

/-- The White_Space property. -/
def blank (c : Char) : Bool :=
  let n := c.toNat
  (9 ≤ n && n ≤ 13) || n == 0x20 || n == 0x85 || n == 0xa0 || n == 0x1680 ||
    (0x2000 ≤ n && n ≤ 0x200a) || n == 0x2028 || n == 0x2029 || n == 0x202f ||
    n == 0x205f || n == 0x3000

/-- The text from its first character that is not blank. -/
def trimLeft (cs : List Char) : List Char := cs.dropWhile blank

/-- The text between its first and its last character that is not blank. -/
def trim (cs : List Char) : List Char :=
  (trimLeft (trimLeft cs).reverse).reverse

/-- The blanks of the core library are blank. -/
theorem blank_of_isWhitespace {c : Char} (h : c.isWhitespace = true) : blank c = true := by
  simp only [Char.isWhitespace, Bool.or_eq_true, decide_eq_true_eq] at h
  rcases h with ((h | h) | h) | h <;> subst h <;> decide

end GameFleet.Text
