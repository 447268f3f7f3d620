import GameFleet.Rounding

/-!
# JSON values and their compact text

A `Json` is a value as a JSON text can state it, an object keeping its members in the
order they are written. `Json.render` writes it without blanks: member names and texts
in double quotes, with an escape for the quote, the backslash and the control
characters and for nothing else.
-/

namespace GameFleet

/-- A number as JSON states it. Whole numbers that fit in 64 bits are kept apart from
all others, which are `digits × 10 ^ exponent`. -/
inductive Numeral where
  | natural (n : Nat)
  /-- The whole number `-n`. -/
  | negative (n : Nat)
  | real (minus : Bool) (digits : Nat) (exponent : Int)
  deriving DecidableEq, Repr

inductive Json where
  | null
  | bool (b : Bool)
  | number (n : Numeral)
  | text (s : String)
  | array (items : List Json)
  | object (members : List (String × Json))
  deriving Repr, Inhabited

namespace Numeral

/-- The least whole number that rounds to no finite double. -/
def doubleBound : Nat := Nat.pow 2 1024 - Nat.pow 2 970

/-- The greatest power of ten below the bound. -/
def greatestPower : Nat := 308

/-- The first digits of a number, as many as fit in 64 bits, and how many digits follow. -/
def leading (digits : Nat) : Nat × Nat :=
  let ds := Nat.toDigits 10 digits
  let first := Nat.ofDigitChars 10 (ds.take 20) 0
  if first < UInt64.size then (first, ds.length - 20)
  else (Nat.ofDigitChars 10 (ds.take 19) 0, ds.length - 19)

/-- Whether the number is beyond the range of a double. It is taken as its first digits
times a power of ten, each rounded before they are multiplied. Near the end of the range
this is not always the double next to the number itself. -/
def tooLarge : Numeral → Bool
  | .natural _ | .negative _ => false
  | .real _ digits exponent =>
    let (first, following) := leading digits
    let power := exponent + following
    if first = 0 || power ≤ 0 then false
    else if greatestPower < power then true
    else decide ((doubleBound : Rat) ≤
      Rounding.nearest first * Rounding.nearest (10 ^ power.toNat))

def render : Numeral → List Char
  | .natural n => Nat.toDigits 10 n
  | .negative n => '-' :: Nat.toDigits 10 n
  | .real minus digits exponent =>
    (if minus then ['-'] else []) ++ Nat.toDigits 10 digits ++ 'e' ::
      (if exponent < 0 then ['-'] else []) ++ Nat.toDigits 10 exponent.natAbs

end Numeral

namespace Json

/-- The number `n` of a count, a port or a version. -/
def nat (n : Nat) : Json := .number (.natural n)

/-- The member of an object called `name`, `null` where there is none. -/
def member (j : Json) (name : String) : Json :=
  match j with
  | .object members => (members.lookup name).getD .null
  | _ => .null

/-! ## Compact text -/

/-- A character inside the quotes of a text. -/
def escape (c : Char) : List Char :=
  match c with
  | '"' => ['\\', '"']
  | '\\' => ['\\', '\\']
  | '\x08' => ['\\', 'b']
  | '\x0c' => ['\\', 'f']
  | '\n' => ['\\', 'n']
  | '\r' => ['\\', 'r']
  | '\t' => ['\\', 't']
  | c =>
    if c.toNat < 0x20 then
      ['\\', 'u', '0', '0', Nat.digitChar (c.toNat / 16), Nat.digitChar (c.toNat % 16)]
    else [c]

def renderText (s : String) : List Char :=
  '"' :: s.toList.flatMap escape ++ ['"']

mutual

/-- The characters of the compact text. -/
def chars : Json → List Char
  | .null => ['n', 'u', 'l', 'l']
  | .bool true => ['t', 'r', 'u', 'e']
  | .bool false => ['f', 'a', 'l', 's', 'e']
  | .number n => n.render
  | .text s => renderText s
  | .array [] => ['[', ']']
  | .array (item :: items) => '[' :: chars item ++ charsOfItems items
  | .object [] => ['\x7b', '\x7d']
  | .object ((name, value) :: members) =>
    '\x7b' :: renderText name ++ ':' :: chars value ++ charsOfMembers members

/-- The rest of an array after an item. -/
def charsOfItems : List Json → List Char
  | [] => [']']
  | item :: items => ',' :: chars item ++ charsOfItems items

/-- The rest of an object after a member. -/
def charsOfMembers : List (String × Json) → List Char
  | [] => ['\x7d']
  | (name, value) :: members =>
    ',' :: renderText name ++ ':' :: chars value ++ charsOfMembers members

end

/-- The compact text of a value. -/
def render (j : Json) : String := String.ofList j.chars

end Json

end GameFleet
