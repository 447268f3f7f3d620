import GameFleet.Resource.Key
import GameFleet.Resource.Labels
import GameFleet.Time.Stamp
import GameFleet.Uid

/-!
# Metadata of stored objects

Every stored object has a `Meta`: the key it is stored under, its labels, the objects
that own it, and what the store keeps on it, an identifier, the time of its creation
and the version of its last write. `Resource` is the class of the kinds of objects that
a store can hold.
-/

namespace GameFleet

open Time (Instant)

instance : Form Uid where
  write u := .text u.toText
  read _ := Document.readParsed Uid.ofText? "a formatted UUID string"

instance : Form Instant where
  write t := .text t.toStamp
  read _ := Document.readParsed Time.ofStampLenient? "an RFC 3339 formatted date and time string"

/-! ## Owners -/

/-- A reference from an object to one that owns it. -/
structure OwnerReference where
  kind : String
  name : String
  uid : Option Uid
  /-- The owner is the one that made the object. -/
  controller : Bool
  deriving DecidableEq

def OwnerReference.fields : Record OwnerReference where
  title := "OwnerReference"
  blank := ⟨"", "", none, false⟩
  fields := [
    .mandatory "kind" kind fun v r => { r with kind := v },
    .mandatory "name" name fun v r => { r with name := v },
    .optional "uid" uid fun v r => { r with uid := v },
    .defaulted "controller" controller fun v r => { r with controller := v }]

instance : Form OwnerReference := OwnerReference.fields.form

/-! ## Metadata -/

structure Meta where
  name : String
  /-- Empty for objects of the whole cluster, such as nodes. -/
  ns : String
  uid : Option Uid
  labels : Labels
  owners : List OwnerReference
  /-- The number of the write that stored the object. -/
  version : Nat
  created : Option Instant
  /-- When deletion of the object was asked for, if it was. -/
  deletion : Option Instant
  deriving DecidableEq

namespace Meta

/-- The metadata of a new object. -/
def new (ns name : String) : Meta := ⟨name, ns, none, .empty, [], 0, none, none⟩

instance : Inhabited Meta := ⟨new "" ""⟩

def key (m : Meta) : Key := ⟨m.ns, m.name⟩

def withLabel (m : Meta) (label value : String) : Meta :=
  { m with labels := m.labels.insert label value }

def label? (m : Meta) (label : String) : Option String := m.labels.find? label

/-- The owner that made the object. -/
def controllerRef? (m : Meta) : Option OwnerReference := m.owners.find? (·.controller)

def isOwnedBy (m : Meta) (kind name : String) : Bool :=
  m.owners.any fun r => r.kind == kind && r.name == name

/-- The fields of metadata. Empty labels and owners are not written. -/
def fields : Record Meta where
  title := "ObjectMeta"
  blank := new "" ""
  fields := [
    .mandatory "name" name fun v m => { m with name := v },
    .defaulted "namespace" ns fun v m => { m with ns := v },
    .optional "uid" uid fun v m => { m with uid := v },
    .filled "labels" labels (fun ls => ls.isEmpty) fun v m => { m with labels := v },
    .listed "ownerReferences" owners fun v m => { m with owners := v },
    .defaulted "resourceVersion" version fun v m => { m with version := v },
    .optional "creationTimestamp" created fun v m => { m with created := v },
    .optional "deletionTimestamp" deletion fun v m => { m with deletion := v }]

instance : Form Meta := fields.form

end Meta

/-! ## Kinds of objects -/

/-- The types whose values a store can hold. -/
class Resource (α : Type) where
  /-- The name of the kind, in references and messages. -/
  kind : String
  metadata : α → Meta
  setMeta : α → Meta → α
  metadata_setMeta : ∀ a m, metadata (setMeta a m) = m
  setMeta_metadata : ∀ a, setMeta a (metadata a) = a
  setMeta_setMeta : ∀ a m m', setMeta (setMeta a m) m' = setMeta a m'

namespace Resource

variable {α : Type} [Resource α]

def key (a : α) : Key := (metadata a).key

def version (a : α) : Nat := (metadata a).version

/-- Deletion of the object was asked for. -/
def isTerminating (a : α) : Bool := (metadata a).deletion.isSome

/-- The object with its metadata changed. -/
def mapMeta (f : Meta → Meta) (a : α) : α := setMeta a (f (metadata a))

/-- The reference that a dependent object made by `a` has to it. -/
def ownerRef (a : α) : OwnerReference :=
  ⟨kind α, (metadata a).name, (metadata a).uid, true⟩

end Resource

end GameFleet
