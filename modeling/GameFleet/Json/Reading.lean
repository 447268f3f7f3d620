import GameFleet.Json.Document
import GameFleet.Text.Quoted

/-!
# Reading typed values from documents

A `Form` writes the values of a type as JSON and reads them back. Records are described
once, by the list of their fields (`Record`), and both directions follow from the list:
an object gives each field by its name, in any order and each at most once, unknown
names being skipped; an array gives them in the order of the list. Types that are a
choice of names are described by the list of their values (`Named`).

What is refused is refused where the document first shows it, and a `Refusal` says why.
A text is read up to that place and no further; a value is there as a whole, so that the
size of an object or array can be what is refused (`Source`).
-/

namespace GameFleet

/-- What a value is when another kind of value is called for. -/
inductive Shape where
  | null
  | bool (b : Bool)
  | number (n : Numeral)
  | text (s : String)
  | sequence
  | map
  deriving DecidableEq, Repr

/-- Why a document is no value of a type. -/
inductive Refusal where
  | flaw (f : Flaw)
  | missingField (name : String)
  | duplicateField (name : String)
  | unknownVariant (found : String) (known : List String)
  | wrongType (found : Shape) (expected : String)
  | wrongValue (found : Shape) (expected : String)
  | wrongLength (found : Nat) (expected : String)
  /-- A text that is no `expected`. -/
  | badText (expected : String)
  deriving DecidableEq, Repr

/-! ## Wording -/

namespace Shape

/-- How a message calls the value. Numbers that are no integers have no fixed text. -/
def describe? : Shape → Option String
  | .null => some "null"
  | .bool b => some ("boolean `" ++ (if b then "true" else "false") ++ "`")
  | .number (.natural n) => some ("integer `" ++ toString n ++ "`")
  | .number (.negative n) => some ("integer `-" ++ toString n ++ "`")
  | .number (.real _ _ _) => none
  | .text s => some ("string " ++ Text.quoted s)
  | .sequence => some "sequence"
  | .map => some "map"

end Shape

namespace Refusal

/-- Names of which one is expected. -/
def choice (known : List String) : String :=
  let quoted := known.map fun name => "`" ++ name ++ "`"
  match quoted with
  | [a] => a
  | [a, b] => a ++ " or " ++ b
  | _ => "one of " ++ String.intercalate ", " quoted

/-- The message for a value of the wrong shape, where its text is fixed. -/
def message? : Refusal → Option String
  | .flaw _ => none
  | .missingField name => some ("missing field `" ++ name ++ "`")
  | .duplicateField name => some ("duplicate field `" ++ name ++ "`")
  | .unknownVariant found known =>
    some ("unknown variant `" ++ found ++ "`, expected " ++ choice known)
  | .wrongType found expected =>
    found.describe?.map fun found => "invalid type: " ++ found ++ ", expected " ++ expected
  | .wrongValue found expected =>
    found.describe?.map fun found => "invalid value: " ++ found ++ ", expected " ++ expected
  | .wrongLength found expected =>
    some ("invalid length " ++ toString found ++ ", expected " ++ expected)
  | .badText _ => none

end Refusal

/-! ## Single values -/

/-- What a document was made of. -/
inductive Source where
  /-- A text, of which nothing is known beyond the place where it is read. -/
  | text
  /-- A value, which is known as a whole. -/
  | value
  deriving DecidableEq, Repr

namespace Document

/-- The shape of a document that is not flawed where it begins. -/
def shape : Document → Except Flaw Shape
  | .null => .ok .null
  | .bool b => .ok (.bool b)
  | .number n => if n.tooLarge then .error .malformed else .ok (.number n)
  | .text t => t.map .text
  | .array _ _ => .ok .sequence
  | .object _ _ => .ok .map
  | .missing => .error .truncated
  | .broken _ flaw => .error flaw

/-- Refuses a document that is not `expected`. -/
def mismatch {α : Type} (d : Document) (expected : String) : Except Refusal α :=
  match d.shape with
  | .ok found => .error (.wrongType found expected)
  | .error flaw => .error (.flaw flaw)

/-- Ends the reading of an array or object. -/
def close (ending : Option Flaw) : Except Refusal Unit :=
  match ending with
  | none => .ok ()
  | some flaw => .error (.flaw flaw)

/-- The name of a member. -/
def memberName : Document → Except Refusal String
  | .text (.ok name) => .ok name
  | .text (.error flaw) => .error (.flaw flaw)
  | .missing => .error (.flaw .truncated)
  | _ => .error (.flaw .malformed)

def readBool : Document → Except Refusal Bool
  | .bool b => .ok b
  | d => d.mismatch "a boolean"

def readString : Document → Except Refusal String
  | .text (.ok s) => .ok s
  | d => d.mismatch "a string"

/-- A natural number below `bound`. -/
def readNatural (bound : Nat) (expected : String) : Document → Except Refusal Nat
  | .number (.natural n) =>
    if n < bound then .ok n else .error (.wrongValue (.number (.natural n)) expected)
  | .number (.negative n) => .error (.wrongValue (.number (.negative n)) expected)
  | d => d.mismatch expected

/-- A text that `parse` takes, which is `expected`. -/
def readParsed {α : Type} (parse : String → Option α) (expected : String) :
    Document → Except Refusal α
  | .text (.ok s) =>
    match parse s with
    | some a => .ok a
    | none => .error (.badText expected)
  | d => d.mismatch expected

/-- The items of an array, from the first on. -/
def readItemsWith {α : Type} (read : Document → Except Refusal α) :
    List Document → Except Refusal (List α)
  | [] => .ok []
  | d :: ds => do
    let a ← read d
    let as ← readItemsWith read ds
    return a :: as

def readList {α : Type} (read : Document → Except Refusal α) :
    Document → Except Refusal (List α)
  | .array items ending => do
    let as ← readItemsWith read items
    close ending
    return as
  | d => d.mismatch "a sequence"

/-- The members of an object, from the first on. -/
def readPairsWith {α : Type} (read : Document → Except Refusal α) :
    List (Document × Document) → Except Refusal (List (String × α))
  | [] => .ok []
  | (name, value) :: members => do
    let name ← name.memberName
    let a ← read value
    let as ← readPairsWith read members
    return (name, a) :: as

/-- An object whose names are free. -/
def readPairs {α : Type} (read : Document → Except Refusal α) :
    Document → Except Refusal (List (String × α))
  | .object members ending => do
    let as ← readPairsWith read members
    close ending
    return as
  | d => d.mismatch "a map"

/-- `null`, or a value. -/
def readOption {α : Type} (read : Document → Except Refusal α) :
    Document → Except Refusal (Option α)
  | .null => .ok none
  | .broken 'n' flaw => .error (.flaw flaw)
  | d => (read d).map some

end Document

/-- How the values of a type stand in JSON. -/
class Form (α : Type) where
  write : α → Json
  read : Source → Document → Except Refusal α

namespace Form

instance : Form Bool := ⟨.bool, fun _ => Document.readBool⟩

instance : Form String := ⟨.text, fun _ => Document.readString⟩

instance : Form UInt16 where
  write n := .nat n.toNat
  read _ d := (d.readNatural UInt16.size "u16").map UInt16.ofNat

instance : Form UInt32 where
  write n := .nat n.toNat
  read _ d := (d.readNatural UInt32.size "u32").map UInt32.ofNat

/-- Natural numbers stand in JSON as far as 64 bits go. -/
instance : Form Nat where
  write := .nat
  read _ d := d.readNatural UInt64.size "u64"

instance {α : Type} [Form α] : Form (List α) where
  write as := .array (as.map write)
  read source := Document.readList (read source)

instance {α : Type} [Form α] : Form (Option α) where
  write
    | none => .null
    | some a => write a
  read source := Document.readOption (read source)

/-- The value that a text states. -/
def ofText {α : Type} [Form α] (s : String) : Except Refusal α := do
  let (document, rest) := Document.ofText s
  let a ← read .text document
  match rest with
  | .error flaw => throw (.flaw flaw)
  | .ok rest =>
    match Document.skipBlank rest with
    | [] => return a
    | _ :: _ => throw (.flaw .malformed)

/-- The value that a JSON value states. -/
def ofJson {α : Type} [Form α] (j : Json) : Except Refusal α :=
  read .value (Document.ofJson j)

/-- The compact text of a value. -/
def toText {α : Type} [Form α] (a : α) : String :=
  (write a).render

end Form

/-! ## Choices of names -/

/-- Types of finitely many values, each with a name. -/
class Named (α : Type) where
  /-- The values, in the order in which messages list their names. -/
  all : List α
  name : α → String

namespace Named

variable {α : Type} [Named α]

/-- The value called `s`. -/
def ofName? (s : String) : Option α :=
  (all (α := α)).find? fun a => name a == s

def readName (s : String) : Except Refusal α :=
  match ofName? s with
  | some a => .ok a
  | none => .error (.unknownVariant s (all.map (name (α := α))))

/-- A member whose name is one of the names and whose value is `null`. -/
def readMember (key value : Document) : Except Refusal α := do
  let a ← readName (← key.memberName)
  match value with
  | .null => return a
  | value => value.mismatch "unit"

/-- A name alone, or an object with the name for its only member and `null` for its
value. In a text, all else is malformed here and not of the wrong type. -/
def readDocument (source : Source) : Document → Except Refusal α
  | .text (.ok s) => readName s
  | .text (.error flaw) => .error (.flaw flaw)
  | .object members ending =>
    match source, members with
    | .value, [(key, value)] => readMember key value
    | .value, _ => .error (.wrongValue .map "map with a single key")
    | .text, [] => .error (.flaw (ending.getD .malformed))
    | .text, (key, value) :: rest => do
      let a ← readMember key value
      match rest with
      | [] => do
        Document.close ending
        return a
      | _ :: _ => throw (.flaw .malformed)
  | .missing => .error (.flaw .truncated)
  | d =>
    match source with
    | .text => .error (.flaw .malformed)
    | .value => d.mismatch "string or map"

instance : Form α where
  write a := .text (name a)
  read := readDocument

end Named

/-! ## Records -/

/-- A field of a record: how it is written, if it is, and how it is set. -/
structure Field (α : Type) where
  name : String
  /-- Whether a record without the field is refused. -/
  required : Bool
  write : α → Option Json
  read : Source → Document → Except Refusal (α → α)

/-- A record by its fields. -/
structure Record (α : Type) where
  title : String
  /-- The record none of whose fields is given. -/
  blank : α
  fields : List (Field α)

namespace Field

variable {α β : Type} [Form β]

/-- A field that has to be given. -/
def mandatory (name : String) (get : α → β) (set : β → α → α) : Field α where
  name := name
  required := true
  write a := some (Form.write (get a))
  read source d := (Form.read source d).map set

/-- A field that may be left out and is always written. -/
def defaulted (name : String) (get : α → β) (set : β → α → α) : Field α where
  name := name
  required := false
  write a := some (Form.write (get a))
  read source d := (Form.read source d).map set

/-- A field that may be left out or `null`, and is written when it is set. -/
def optional (name : String) (get : α → Option β) (set : Option β → α → α) : Field α where
  name := name
  required := false
  write a := (get a).map Form.write
  read source d := (Form.read source d).map set

/-- A field that may be left out, and is written unless its value is `empty`. -/
def filled (name : String) (get : α → β) (empty : β → Bool) (set : β → α → α) : Field α where
  name := name
  required := false
  write a := if empty (get a) then none else some (Form.write (get a))
  read source d := (Form.read source d).map set

/-- A list that may be left out, and is written when it has items. -/
def listed (name : String) (get : α → List β) (set : List β → α → α) : Field α :=
  filled name get List.isEmpty set

end Field

namespace Record

variable {α : Type}

/-- Sets the fields that members give, in their order. `seen` are the names given so
far, and a name given twice is refused before its value is looked at. -/
def readMembers (source : Source) (fields : List (Field α)) :
    List (Document × Document) → List String → α → Except Refusal (α × List String)
  | [], seen, a => .ok (a, seen)
  | (key, value) :: members, seen, a => do
    let name ← key.memberName
    match fields.find? fun f => f.name == name with
    | none => readMembers source fields members seen a
    | some f =>
      if seen.contains name then
        throw (.duplicateField name)
      else do
        let set ← f.read source value
        readMembers source fields members (name :: seen) (set a)

/-- What a sequence of the wrong length is no form of. -/
def arity (r : Record α) : String :=
  "struct " ++ r.title ++ " with " ++ toString r.fields.length ++
    (if r.fields.length = 1 then " element" else " elements")

/-- What is wrong with an array that goes on after `given` fields with `more` items. -/
def surplus (source : Source) (given more : Nat) : Refusal :=
  match source with
  | .text => .flaw .malformed
  | .value => .wrongLength (given + more) "fewer elements in array"

/-- Sets the fields in their order from the items of an array. Only fields that may be
left out can be missing at the end, and there can be no more items than fields. -/
def readItems (source : Source) (arity : String) (ending : Option Flaw) :
    List (Field α) → List Document → Nat → α → Except Refusal α
  | [], [], _, a => do
    Document.close ending
    return a
  | [], ds@(_ :: _), given, _ => .error (surplus source given ds.length)
  | f :: fields, d :: ds, given, a => do
    let set ← f.read source d
    readItems source arity ending fields ds (given + 1) (set a)
  | f :: fields, [], given, a =>
    match ending with
    | some flaw => .error (.flaw flaw)
    | none =>
      if f.required then .error (.wrongLength given arity)
      else readItems source arity ending fields [] (given + 1) a

def read (r : Record α) (source : Source) : Document → Except Refusal α
  | .object members ending => do
    let (a, seen) ← readMembers source r.fields members [] r.blank
    Document.close ending
    match r.fields.find? fun f => f.required && !seen.contains f.name with
    | some f => throw (.missingField f.name)
    | none => return a
  | .array items ending => readItems source r.arity ending r.fields items 0 r.blank
  | d => d.mismatch ("struct " ++ r.title)

def write (r : Record α) (a : α) : Json :=
  .object (r.fields.filterMap fun f => (f.write a).map fun j => (f.name, j))

/-- The form that a record's fields describe. -/
@[reducible] def form (r : Record α) : Form α := ⟨r.write, r.read⟩

end Record

end GameFleet
