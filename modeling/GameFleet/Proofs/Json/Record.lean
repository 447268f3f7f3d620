import GameFleet.Json.Reading
import GameFleet.Proofs.Json.Text

/-!
# Typed values read back

A value is restored if the document of what it is written as is read as the value
(`Form.Restores`), and then so is its text (`Form.Restores.ofText_toText`). Types all of
whose values are restored are `Lossless`.

A record is restored field by field (`Record.restores`). Each field that is written sets
what it was written from, and each field that is left out was empty, as it is in the
record none of whose fields is given; so it is enough to say, for each field in turn,
how its value is restored (`Field.Carries.mandatory` and its like).
-/

namespace GameFleet

namespace Form

/-- The text that the value is written as is read as the value. It is never `null`, which
stands for no value. -/
structure Restores {α : Type} [Form α] (a : α) : Prop where
  plain : (write a).Plain
  ne_null : write a ≠ .null
  read : Form.read .text (write a).document = .ok a

/-- Every value of the type is restored. -/
class Lossless (α : Type) [Form α] : Prop where
  restores : ∀ a : α, Restores a

export Lossless (restores)

theorem Restores.ofText_toText {α : Type} [Form α] {a : α} (h : Restores a) :
    ofText (toText a) = .ok a := by
  simp only [ofText, toText, Document.ofText_render h.plain, h.read, bind, Except.bind]
  rfl

/-! ## Single values -/

instance : Lossless Bool where
  restores b := ⟨.bool b, by simp [write], rfl⟩

instance : Lossless String where
  restores s := ⟨.text s, by simp [write], rfl⟩

theorem restores_nat {n : Nat} (h : n < UInt64.size) : Restores n where
  plain := .nat h
  ne_null := by simp [write, Json.nat]
  read := if_pos h

instance : Lossless UInt16 where
  restores n :=
    { plain := .nat (Nat.lt_trans n.toNat_lt (by decide))
      ne_null := by simp [write, Json.nat]
      read := by
        simp [Form.read, write, Json.nat, Json.document, Document.readNatural, n.toNat_lt,
          Except.map, UInt16.size] }

instance : Lossless UInt32 where
  restores n :=
    { plain := .nat (Nat.lt_trans n.toNat_lt (by decide))
      ne_null := by simp [write, Json.nat]
      read := by
        simp [Form.read, write, Json.nat, Json.document, Document.readNatural, n.toNat_lt,
          Except.map, UInt32.size] }

theorem restores_list {α : Type} [Form α] {as : List α} (h : ∀ a ∈ as, Restores a) :
    Restores as where
  plain := .array fun j hj => by
    obtain ⟨a, ha, rfl⟩ := List.mem_map.1 hj
    exact (h a ha).plain
  ne_null := by simp [write]
  read := by
    have hitems : Document.readItemsWith (Form.read (α := α) .text)
        (as.map fun a => (write a).document) = .ok as := by
      induction as with
      | nil => rfl
      | cons a as ih =>
        simp only [List.map_cons, Document.readItemsWith, (h a List.mem_cons_self).read,
          ih fun a ha => h a (List.mem_cons_of_mem _ ha), bind, Except.bind]
        rfl
    simp only [Form.read, write, Json.document, Json.documentItems_eq_map, List.map_map,
      Function.comp_def, Document.readList, hitems, bind, Except.bind]
    rfl

instance {α : Type} [Form α] [Lossless α] : Lossless (List α) where
  restores _ := restores_list fun a _ => restores a

/-- A value that is there is read as such where it could be left out. -/
theorem Restores.read_some {α : Type} [Form α] {a : α} (h : Restores a) :
    Form.read (α := Option α) .text (write a).document = .ok (some a) := by
  have hread := h.read
  have hne := h.ne_null
  show Document.readOption (Form.read .text) _ = _
  generalize write a = j at hread hne
  cases j <;> simp_all [Json.document, Document.readOption, Except.map]

end Form

/-- Each value of the type is the one that has its name. -/
class LawfulNamed (α : Type) [Named α] : Prop where
  ofName?_name : ∀ a : α, Named.ofName? (Named.name a) = some a

instance {α : Type} [Named α] [LawfulNamed α] : Form.Lossless α where
  restores a :=
    { plain := .text _
      ne_null := by simp [Form.write]
      read := by
        simp [Form.read, Form.write, Json.document, Named.readDocument, Named.readName,
          LawfulNamed.ofName?_name] }

/-! ## Fields -/

/-- Reading what the field of `a` is written as takes the record `x` to `y`. -/
inductive Field.Carries {α : Type} (f : Field α) (a x y : α) : Prop
  | written {j : Json} {set : α → α} (hwrite : f.write a = some j) (hplain : j.Plain)
    (hread : f.read .text j.document = .ok set) (hset : set x = y)
  | left (hwrite : f.write a = none) (hrequired : f.required = false) (hset : x = y)

namespace Field.Carries

variable {α β : Type} [Form β] {a x : α} {name : String} {set : β → α → α}

theorem mandatory {get : α → β} (h : Form.Restores (get a)) :
    (Field.mandatory name get set).Carries a x (set (get a) x) :=
  .written rfl h.plain (by simp [Field.mandatory, h.read, Except.map]) rfl

theorem defaulted {get : α → β} (h : Form.Restores (get a)) :
    (Field.defaulted name get set).Carries a x (set (get a) x) :=
  .written rfl h.plain (by simp [Field.defaulted, h.read, Except.map]) rfl

theorem optional {get : α → Option β} {set : Option β → α → α}
    (h : ∀ b ∈ get a, Form.Restores b) (hset : set none x = x) :
    (Field.optional name get set).Carries a x (set (get a) x) := by
  cases hget : get a with
  | none => exact .left (by simp [Field.optional, hget]) rfl hset.symm
  | some b =>
    have hb := h b hget
    exact .written (by simp only [Field.optional, hget]; rfl) hb.plain
      (by simp [Field.optional, hb.read_some, Except.map]) rfl

theorem filled {get : α → β} {empty : β → Bool} (h : Form.Restores (get a))
    (hset : empty (get a) = true → set (get a) x = x) :
    (Field.filled name get empty set).Carries a x (set (get a) x) := by
  cases hempty : empty (get a) with
  | true => exact .left (by simp [Field.filled, hempty]) rfl (hset hempty).symm
  | false =>
    exact .written (by simp only [Field.filled, hempty]; rfl) h.plain
      (by simp [Field.filled, h.read, Except.map]) rfl

theorem listed {get : α → List β} {set : List β → α → α} (h : ∀ b ∈ get a, Form.Restores b)
    (hset : set [] x = x) : (Field.listed name get set).Carries a x (set (get a) x) :=
  filled (Form.restores_list h) fun hempty => by rw [List.isEmpty_iff.1 hempty, hset]

end Field.Carries

/-! ## Records -/

namespace Record

variable {α : Type}

/-- Reading what the fields of `a` are written as, one after the other, takes the record
`x` to `y`. -/
inductive Carries (a : α) : List (Field α) → α → α → Prop
  | nil {x : α} : Carries a [] x x
  | cons {f : Field α} {fs : List (Field α)} {x y z : α} (hf : f.Carries a x y)
    (hfs : Carries a fs y z) : Carries a (f :: fs) x z

/-- The members that the fields are written as. -/
def members (fs : List (Field α)) (a : α) : List (String × Json) :=
  fs.filterMap fun f => (f.write a).map fun j => (f.name, j)

theorem members_cons_of_some {f : Field α} {a : α} {j : Json} (h : f.write a = some j)
    (fs : List (Field α)) : members (f :: fs) a = (f.name, j) :: members fs a := by
  simp [members, h]

theorem members_cons_of_none {f : Field α} {a : α} (h : f.write a = none)
    (fs : List (Field α)) : members (f :: fs) a = members fs a := by
  simp [members, h]

theorem Carries.plain {a x y : α} {fs : List (Field α)} (h : Carries a fs x y) :
    ∀ m ∈ members fs a, m.2.Plain := by
  induction h with
  | nil => simp [members]
  | cons hf _ ih =>
    cases hf with
    | written hwrite hplain => rw [members_cons_of_some hwrite]; simpa [hplain] using ih
    | left hwrite => rw [members_cons_of_none hwrite]; exact ih

/-- A field is found by its name. -/
theorem find?_name {fields : List (Field α)} (hnames : (fields.map Field.name).Nodup)
    {f : Field α} (hf : f ∈ fields) : (fields.find? fun g => g.name == f.name) = some f := by
  induction fields with
  | nil => cases hf
  | cons g gs ih =>
    obtain ⟨hg, hgs⟩ := List.nodup_cons.1 hnames
    rcases List.mem_cons.1 hf with rfl | hf
    · simp
    · have hne : g.name ≠ f.name := fun h => hg (h ▸ List.mem_map_of_mem hf)
      simpa [hne] using ih hgs hf

/-- The members that fields are written as are read one after the other. No field is
given twice, and all that have to be given are. -/
theorem Carries.readMembers {fields : List (Field α)} (hnames : (fields.map Field.name).Nodup)
    {a x y : α} {fs : List (Field α)} (h : Carries a fs x y) {seen : List String}
    (hmem : ∀ f ∈ fs, f ∈ fields) (hfs : (fs.map Field.name).Nodup)
    (hseen : ∀ f ∈ fs, f.name ∉ seen) :
    ∃ seen', readMembers .text fields (Json.documentMembers (members fs a)) seen x = .ok (y, seen') ∧
      (∀ name ∈ seen, name ∈ seen') ∧ ∀ f ∈ fs, f.required = true → f.name ∈ seen' := by
  induction h generalizing seen with
  | nil => exact ⟨seen, rfl, fun _ h => h, by simp⟩
  | @cons f fs x y z hf _ ih =>
    obtain ⟨hname, hfs⟩ := List.nodup_cons.1 hfs
    have hmem' : ∀ g ∈ fs, g ∈ fields := fun g hg => hmem g (List.mem_cons_of_mem _ hg)
    cases hf with
    | @written j set hwrite hplain hread hset =>
      have hfresh : ∀ g ∈ fs, g.name ∉ f.name :: seen := by
        intro g hg hin
        rcases List.mem_cons.1 hin with heq | hin
        · exact hname (heq ▸ List.mem_map_of_mem hg)
        · exact hseen g (List.mem_cons_of_mem _ hg) hin
      obtain ⟨seen', hrun, hkept, hgiven⟩ := ih hmem' hfs hfresh
      refine ⟨seen', ?_, fun name h => hkept name (List.mem_cons_of_mem _ h), ?_⟩
      · rw [members_cons_of_some hwrite, Json.documentMembers, Record.readMembers]
        simp only [Document.memberName, find?_name hnames (hmem f List.mem_cons_self), hread, bind,
          Except.bind, hset, hrun]
        simp [hseen f List.mem_cons_self]
      · intro g hg hrequired
        rcases List.mem_cons.1 hg with rfl | hg
        · exact hkept _ List.mem_cons_self
        · exact hgiven g hg hrequired
    | left hwrite hrequired hset =>
      subst hset
      obtain ⟨seen', hrun, hkept, hgiven⟩ :=
        ih hmem' hfs fun g hg => hseen g (List.mem_cons_of_mem _ hg)
      refine ⟨seen', by rw [members_cons_of_none hwrite]; exact hrun, hkept, ?_⟩
      intro g hg hg'
      rcases List.mem_cons.1 hg with rfl | hg
      · simp [hrequired] at hg'
      · exact hgiven g hg hg'

/-- A record is restored if its fields have different names and carry it over from the
record none of whose fields is given. -/
theorem restores {r : Record α} {a : α} (hnames : (r.fields.map Field.name).Nodup)
    (h : Carries a r.fields r.blank a) : @Form.Restores α r.form a :=
  letI := r.form
  { plain := .object h.plain
    ne_null := by simp [Form.write, Record.write]
    read := by
      obtain ⟨seen, hrun, -, hgiven⟩ :=
        h.readMembers hnames (fun _ h => h) hnames fun _ _ => List.not_mem_nil
      have hmissing : (r.fields.find? fun f => f.required && !seen.contains f.name) = none := by
        rw [List.find?_eq_none]
        intro f hf
        simpa using hgiven f hf
      show r.read .text (Json.document (r.write a)) = .ok a
      simp only [Record.write, Json.document, Record.read]
      rw [← members, hrun]
      simp only [bind, Except.bind, Document.close, hmissing]
      rfl }

end Record

end GameFleet
