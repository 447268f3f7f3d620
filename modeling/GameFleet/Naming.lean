/-!
# Names of generated objects

The name of a generated object is that of the object it is made for and a suffix of
lower case letters. Suffixes are drawn one after the other: the `n`-th is `n` written in
base 26 with letters for digits (`Naming.suffix`), or letters drawn at random
(`Naming.drawn`).
-/

namespace GameFleet.Naming

/-- The letter with number `n`, counted around the alphabet. -/
def letter (n : Nat) : Char := Char.ofNat ('a'.toNat + n % 26)

/-- The last `length` letters of `n` in base 26, and in reverse. -/
def lettersFromLast : Nat → Nat → List Char
  | 0, _ => []
  | length + 1, n => letter n :: lettersFromLast length (n / 26)

/-- The `n`-th suffix of a length. -/
def suffix (length n : Nat) : String := String.ofList (lettersFromLast length n).reverse

/-- A suffix of drawn letters. -/
def drawn (letters : List (Fin 26)) : String := String.ofList (letters.map fun l => letter l.val)

/-- The length of the suffixes of generated names. -/
def suffixLength : Nat := 5

/-- The name of an object made for `owner`. -/
def generated (owner suffix : String) : String := owner ++ "-" ++ suffix

example : generated "arena" (suffix suffixLength 27) = "arena-aaabb" := by decide +kernel

end GameFleet.Naming
