import GameFleet.Json.Value
import GameFleet.Table

/-!
# JSON text and what is wrong with it

`Document.ofText` reads a text as far as it is JSON. Where it stops being JSON the
document says so at that place, as `missing` (the text ends) or `broken`, and says
nothing of what would come after. A reader that refuses a value of the wrong shape
before it comes to the flaw can thus tell the two apart, and one that does not care for
a value is not held up by what only matters to one that does: a number beyond all
doubles, a lone half of a surrogate pair.
-/

namespace GameFleet

/-- Why a text is not JSON. -/
inductive Flaw where
  /-- A character that cannot stand where it stands. -/
  | malformed
  /-- The text ends too early. -/
  | truncated
  deriving DecidableEq, Repr

/-- A text read as far as it is JSON. The `ending` of an array or object is what is
wrong with it after its last item, or with the last item for one that skips it. -/
inductive Document where
  | null
  | bool (b : Bool)
  | number (n : Numeral)
  /-- A quoted text, or why its characters are none. -/
  | text (t : Except Flaw String)
  | array (items : List Document) (ending : Option Flaw)
  /-- Names are documents, too: a text may have anything where a name should be. -/
  | object (members : List (Document × Document)) (ending : Option Flaw)
  /-- The text ends where a value should begin. -/
  | missing
  /-- A value that begins with `first` and cannot be read to its end. -/
  | broken (first : Char) (flaw : Flaw)
  deriving Inhabited

namespace Document

/-! ## Blanks, words and numbers -/

/-- The four blanks of JSON. -/
def isBlank (c : Char) : Bool := c == ' ' || c == '\n' || c == '\t' || c == '\r'

def skipBlank (cs : List Char) : List Char := cs.dropWhile isBlank

/-- The rest of the text after the letters of `word`. -/
def readWord : List Char → List Char → Except Flaw (List Char)
  | [], cs => .ok cs
  | _ :: _, [] => .error .truncated
  | w :: ws, c :: cs => if c = w then readWord ws cs else .error .malformed

/-- The digits that a text begins with, and the rest. -/
def readDigits (cs : List Char) : List Char × List Char :=
  (cs.takeWhile Char.isDigit, cs.dropWhile Char.isDigit)

/-- Digits where at least one has to stand. A text that ends there instead is truncated
for one who reads the number and malformed for one who skips it, who is the second. -/
def readDigits1 (cs : List Char) : Except (Flaw × Flaw) (List Char × List Char) :=
  match readDigits cs, cs with
  | ([], _), [] => .error (.truncated, .malformed)
  | ([], _), _ :: _ => .error (.malformed, .malformed)
  | digits, _ => .ok digits

/-- The whole part of a number: a zero stands alone. -/
def readWhole (cs : List Char) : Except (Flaw × Flaw) (List Char × List Char) := do
  let (digits, rest) ← readDigits1 cs
  match digits with
  | '0' :: _ :: _ => throw (.malformed, .malformed)
  | _ => return (digits, rest)

/-- A point and the digits after it, if there is a point. -/
def readFraction : List Char → Except (Flaw × Flaw) (Option (List Char) × List Char)
  | '.' :: cs => do
    let (digits, rest) ← readDigits1 cs
    return (some digits, rest)
  | cs => .ok (none, cs)

/-- The power of ten after an `e`, if there is an `e`. -/
def readPower (cs : List Char) : Except (Flaw × Flaw) (Option Int × List Char) :=
  let power (minus : Bool) (cs : List Char) : Except (Flaw × Flaw) (Option Int × List Char) := do
    let (digits, rest) ← readDigits1 cs
    let n : Int := Nat.ofDigitChars 10 digits 0
    return (some (if minus then -n else n), rest)
  let signed : List Char → Except (Flaw × Flaw) (Option Int × List Char)
    | '+' :: cs => power false cs
    | '-' :: cs => power true cs
    | cs => power false cs
  match cs with
  | 'e' :: cs => signed cs
  | 'E' :: cs => signed cs
  | cs => .ok (none, cs)

/-- Whole numbers without point or power are naturals below `2 ^ 64` or negatives down
to `-2 ^ 63`. All others are reals, minus zero among them. -/
def numeral (minus : Bool) (whole : List Char) (fraction : Option (List Char))
    (power : Option Int) : Numeral :=
  let real : Numeral :=
    .real minus (Nat.ofDigitChars 10 (whole ++ fraction.getD []) 0)
      (power.getD 0 - (fraction.getD []).length)
  match fraction, power with
  | none, none =>
    let n := Nat.ofDigitChars 10 whole 0
    if minus then
      if 0 < n ∧ n ≤ UInt64.size / 2 then .negative n else real
    else if n < UInt64.size then .natural n else real
  | _, _ => real

def readNumeral (cs : List Char) : Except (Flaw × Flaw) (Numeral × List Char) := do
  let (minus, cs) := match cs with
    | '-' :: cs => (true, cs)
    | cs => (false, cs)
  let (whole, cs) ← readWhole cs
  let (fraction, cs) ← readFraction cs
  let (power, cs) ← readPower cs
  return (numeral minus whole fraction power, cs)

/-! ## Quoted texts -/

def hexValue? (c : Char) : Option Nat :=
  if '0' ≤ c ∧ c ≤ '9' then some (c.toNat - '0'.toNat)
  else if 'a' ≤ c ∧ c ≤ 'f' then some (c.toNat - 'a'.toNat + 10)
  else if 'A' ≤ c ∧ c ≤ 'F' then some (c.toNat - 'A'.toNat + 10)
  else none

/-- The number written by four hexadecimal digits, of which the text is truncated if it
has fewer than four bytes left. -/
def hexUnit (a b c d : Char) : Except Flaw Nat :=
  match hexValue? a, hexValue? b, hexValue? c, hexValue? d with
  | some a, some b, some c, some d => .ok (((a * 16 + b) * 16 + c) * 16 + d)
  | _, _, _, _ => .error .malformed

/-- What is wrong with a text that ends before four hexadecimal digits: its last bytes
may still be four. -/
def shortHex (cs : List Char) : Flaw :=
  if (String.ofList cs).utf8ByteSize < 4 then .truncated else .malformed

/-- The character of an escape of one letter. -/
def unescape? : Char → Option Char
  | '"' => some '"'
  | '\\' => some '\\'
  | '/' => some '/'
  | 'b' => some '\x08'
  | 'f' => some '\x0c'
  | 'n' => some '\n'
  | 'r' => some '\r'
  | 't' => some '\t'
  | _ => none

/-- A high surrogate. -/
def isHigh (n : Nat) : Bool := 0xd800 ≤ n && n ≤ 0xdbff

/-- A low surrogate. -/
def isLow (n : Nat) : Bool := 0xdc00 ≤ n && n ≤ 0xdfff

/-- The characters of a quoted text after its first quote, and the rest after its last.
Escaped surrogates have to come in pairs. -/
def readText : List Char → Except Flaw (List Char × List Char)
  | [] => .error .truncated
  | '"' :: rest => .ok ([], rest)
  | '\\' :: 'u' :: a :: b :: c :: d :: rest => do
    let n ← hexUnit a b c d
    if isLow n then .error .malformed
    else if isHigh n then
      match rest with
      | '\\' :: 'u' :: a :: b :: c :: d :: rest => do
        let m ← hexUnit a b c d
        if isLow m then do
          let (cs, rest) ← readText rest
          return (Char.ofNat ((n - 0xd800) * 0x400 + (m - 0xdc00) + 0x10000) :: cs, rest)
        else .error .malformed
      | '\\' :: 'u' :: cs => .error (shortHex cs)
      | ['\\'] => .error .truncated
      | [] => .error .truncated
      | _ => .error .malformed
    else do
      let (cs, rest) ← readText rest
      return (Char.ofNat n :: cs, rest)
  | '\\' :: 'u' :: cs => .error (shortHex cs)
  | ['\\'] => .error .truncated
  | '\\' :: c :: rest =>
    match unescape? c with
    | some e => do
      let (cs, rest) ← readText rest
      return (e :: cs, rest)
    | none => .error .malformed
  | c :: rest =>
    if c.toNat < 0x20 then .error .malformed
    else do
      let (cs, rest) ← readText rest
      return (c :: cs, rest)

/-- The rest after a quoted text, for one who does not care for its characters. -/
def skipText : List Char → Except Flaw (List Char)
  | [] => .error .truncated
  | '"' :: rest => .ok rest
  | '\\' :: 'u' :: a :: b :: c :: d :: rest =>
    match hexUnit a b c d with
    | .ok _ => skipText rest
    | .error flaw => .error flaw
  | '\\' :: 'u' :: cs => .error (shortHex cs)
  | ['\\'] => .error .truncated
  | '\\' :: c :: rest => if (unescape? c).isSome then skipText rest else .error .malformed
  | c :: rest => if c.toNat < 0x20 then .error .malformed else skipText rest

/-! ## Values -/

/-- A quoted text as a document. -/
def textOf (cs : List Char) : Document :=
  .text ((readText cs).map fun r => String.ofList r.1)

/-- The flaw that ends an array or object, if the rest of the text is lost to it. -/
def endingOf : Except Flaw (List Char) → Option Flaw
  | .ok _ => none
  | .error flaw => some flaw

/-- A word of JSON that begins with `first`. -/
def wordValue (first : Char) (value : Document) (word cs : List Char) :
    Document × Except Flaw (List Char) :=
  match readWord word cs with
  | .ok rest => (value, .ok rest)
  | .error flaw => (.broken first flaw, .error flaw)

mutual

/-- The value that a text begins with, and the rest after it or the flaw that one who
skips the value comes to. Going into an array or object and going on to its next item
take a unit of `fuel` each, so twice the length of the text is enough. -/
def readValue : Nat → List Char → Document × Except Flaw (List Char)
  | 0, _ => (.missing, .error .truncated)
  | fuel + 1, cs =>
    match skipBlank cs with
    | [] => (.missing, .error .truncated)
    | '"' :: cs => (textOf cs, skipText cs)
    | 'n' :: cs => wordValue 'n' .null ['u', 'l', 'l'] cs
    | 't' :: cs => wordValue 't' (.bool true) ['r', 'u', 'e'] cs
    | 'f' :: cs => wordValue 'f' (.bool false) ['a', 'l', 's', 'e'] cs
    | '[' :: cs =>
      match skipBlank cs with
      | [] => (.array [] (some .truncated), .error .truncated)
      | ']' :: rest => (.array [] none, .ok rest)
      | cs =>
        let (items, rest) := readItems fuel cs
        (.array items (endingOf rest), rest)
    | '\x7b' :: cs =>
      match skipBlank cs with
      | [] => (.object [] (some .truncated), .error .truncated)
      | '\x7d' :: rest => (.object [] none, .ok rest)
      | cs =>
        let (members, rest) := readMembers fuel cs
        (.object members (endingOf rest), rest)
    | c :: cs =>
      if c = '-' ∨ c.isDigit then
        match readNumeral (c :: cs) with
        | .ok (n, rest) => (.number n, .ok rest)
        | .error (flaw, skipped) => (.broken c flaw, .error skipped)
      else (.broken c .malformed, .error .malformed)

/-- The items of an array from one of them on, and the rest after its bracket. -/
def readItems : Nat → List Char → List Document × Except Flaw (List Char)
  | 0, _ => ([], .error .truncated)
  | fuel + 1, cs =>
    match readValue fuel cs with
    | (item, .error flaw) => ([item], .error flaw)
    | (item, .ok rest) =>
      match skipBlank rest with
      | [] => ([item], .error .truncated)
      | ',' :: cs =>
        let (items, rest) := readItems fuel cs
        (item :: items, rest)
      | ']' :: rest => ([item], .ok rest)
      | _ => ([item], .error .malformed)

/-- The members of an object from one of them on, and the rest after its brace. -/
def readMembers : Nat → List Char → List (Document × Document) × Except Flaw (List Char)
  | 0, _ => ([], .error .truncated)
  | fuel + 1, cs =>
    match skipBlank cs with
    | [] => ([(.missing, .missing)], .error .truncated)
    | '"' :: cs =>
      let name := textOf cs
      match skipText cs with
      | .error flaw => ([(name, .missing)], .error flaw)
      | .ok rest =>
        match skipBlank rest with
        | [] => ([(name, .missing)], .error .truncated)
        | ':' :: cs =>
          match readValue fuel cs with
          | (value, .error flaw) => ([(name, value)], .error flaw)
          | (value, .ok rest) =>
            match skipBlank rest with
            | [] => ([(name, value)], .error .truncated)
            | ',' :: cs =>
              let (members, rest) := readMembers fuel cs
              ((name, value) :: members, rest)
            | '\x7d' :: rest => ([(name, value)], .ok rest)
            | _ => ([(name, value)], .error .malformed)
        | c :: _ => ([(name, .broken c .malformed)], .error .malformed)
    | cs => ([((readValue fuel cs).1, .missing)], .error .malformed)

end

/-- The document a text holds, and what follows it. -/
def ofText (s : String) : Document × Except Flaw (List Char) :=
  let cs := s.toList
  readValue (2 * cs.length + 2) cs

/-! ## Values as documents -/

mutual

/-- The document of a value. The members of an object stand in the order of their names,
each name once. -/
def ofJson : Json → Document
  | .null => .null
  | .bool b => .bool b
  | .number n => .number n
  | .text s => .text (.ok s)
  | .array items => .array (ofItems items) none
  | .object members =>
    .object ((Table.ofList (ofMembers members)).entries.map fun e => (.text (.ok e.1), e.2)) none

def ofItems : List Json → List Document
  | [] => []
  | item :: items => ofJson item :: ofItems items

def ofMembers : List (String × Json) → List (String × Document)
  | [] => []
  | (name, value) :: members => (name, ofJson value) :: ofMembers members

end

mutual

/-- The value a document states, if nothing in it is wrong. -/
def toJson : Document → Except Flaw Json
  | .null => .ok .null
  | .bool b => .ok (.bool b)
  | .number n => if n.tooLarge then .error .malformed else .ok (.number n)
  | .text t => t.map .text
  | .array items ending => do
    let items ← toItems items
    match ending with
    | none => return .array items
    | some flaw => throw flaw
  | .object members ending => do
    let members ← toMembers members
    match ending with
    | none => return .object members
    | some flaw => throw flaw
  | .missing => .error .truncated
  | .broken _ flaw => .error flaw

def toItems : List Document → Except Flaw (List Json)
  | [] => .ok []
  | item :: items => do return (← toJson item) :: (← toItems items)

def toMembers : List (Document × Document) → Except Flaw (List (String × Json))
  | [] => .ok []
  | (name, value) :: members => do
    match name with
    | .text t => return (← t, ← toJson value) :: (← toMembers members)
    | .missing => throw .truncated
    | _ => throw .malformed

end

end Document

namespace Json

/-- The value that a text states. -/
def ofText (s : String) : Except Flaw Json := do
  let (document, rest) := Document.ofText s
  let value ← document.toJson
  match Document.skipBlank (← rest) with
  | [] => return value
  | _ :: _ => throw .malformed

end Json

end GameFleet
