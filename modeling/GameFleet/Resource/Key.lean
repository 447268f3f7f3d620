import GameFleet.Json.Reading
import GameFleet.Table

/-!
# Object keys

A `Key` names an object among those of its kind. It is shown as `namespace/name`, or as
the name alone where there is no namespace, and work queues carry keys in that form.
-/

namespace GameFleet

structure Key where
  ns : String
  name : String
  deriving DecidableEq, Repr, Inhabited

/-- Why a text is no key. -/
inductive KeyError where
  | empty
  /-- More than one slash. -/
  | malformed (text : String)
  | emptyName (text : String)
  deriving DecidableEq, Repr

def KeyError.message : KeyError → String
  | .empty => "key cannot be empty"
  | .malformed text => "unexpected key format: '" ++ text ++ "'"
  | .emptyName text => "key '" ++ text ++ "' has an empty name"

namespace Key

/-- Keys compare by namespace, then by name. -/
instance : LT Key := ⟨fun a b => a.ns < b.ns ∨ a.ns = b.ns ∧ a.name < b.name⟩

instance : Ordered Key where
  decideLt a b :=
    inferInstanceAs (Decidable (a.ns < b.ns ∨ a.ns = b.ns ∧ a.name < b.name))
  decideEq := inferInstance
  lt_irrefl a h := h.elim (Ordered.lt_irrefl _) fun h => Ordered.lt_irrefl _ h.2
  lt_trans {a b c} hab hbc := by
    rcases hab with hab | ⟨hab, hab'⟩ <;> rcases hbc with hbc | ⟨hbc, hbc'⟩
    · exact Or.inl (Ordered.lt_trans hab hbc)
    · exact Or.inl (hbc ▸ hab)
    · exact Or.inl (hab ▸ hbc)
    · exact Or.inr ⟨hab.trans hbc, Ordered.lt_trans hab' hbc'⟩
  lt_or_eq_or_gt a b := by
    rcases Ordered.lt_or_eq_or_gt a.ns b.ns with h | h | h
    · exact Or.inl (Or.inl h)
    · rcases Ordered.lt_or_eq_or_gt a.name b.name with h' | h' | h'
      · exact Or.inl (Or.inr ⟨h, h'⟩)
      · exact Or.inr (Or.inl (by cases a; cases b; cases h; cases h'; rfl))
      · exact Or.inr (Or.inr (Or.inr ⟨h.symm, h'⟩))
    · exact Or.inr (Or.inr (Or.inl h))

/-- The key as queues and messages show it. -/
def toText (k : Key) : String :=
  if k.ns = "" then k.name else k.ns ++ "/" ++ k.name

/-- The pieces of a text between its slashes. -/
def pieces : List Char → List (List Char)
  | [] => [[]]
  | c :: cs =>
    if c = '/' then [] :: pieces cs
    else
      match pieces cs with
      | [] => [[c]]
      | p :: ps => (c :: p) :: ps

/-- The key that a text shows. -/
def ofText (s : String) : Except KeyError Key :=
  if s = "" then .error .empty
  else
    let named (ns name : List Char) : Except KeyError Key :=
      if name = [] then .error (.emptyName s)
      else .ok ⟨String.ofList ns, String.ofList name⟩
    match pieces s.toList with
    | [name] => named [] name
    | [ns, name] => named ns name
    | _ => .error (.malformed s)

/-- The keys in ascending order, each once. -/
def sort (ks : List Key) : List Key :=
  (Table.ofList (ks.map fun k => (k, ()))).keys

/-- The fields of a key. -/
def fields : Record Key where
  title := "ObjectKey"
  blank := default
  fields := [
    .mandatory "namespace" ns fun v k => { k with ns := v },
    .mandatory "name" name fun v k => { k with name := v }]

instance : Form Key := fields.form

end Key

end GameFleet
