import GameFleet.Json.Reading
import GameFleet.Table

/-!
# Labels and selectors

Objects carry labels, at most one value to a name. Membership in a collection is kept
as a label of the member, so that the members of a collection can be listed without
following references. A `Selector` asks for the values of some labels and selects the
objects that have them all; one that asks for nothing selects everything.
-/

namespace GameFleet

abbrev Labels := Table String String

namespace Labels

/-- On each instance that is a member of a collection: the name of the collection. -/
def collectionName : String := "DedicatedGameServerCollectionName"

/-- On each instance that was detached from a collection: the name of the collection. -/
def formerCollectionName : String := "OriginalDedicatedGameServerCollectionName"

/-- On each pod: the name of the instance it is bound to. -/
def gameServerName : String := "DedicatedGameServerName"

/-- On each pod made for an instance. -/
def isGameServer : String := "IsDedicatedGameServer"

instance : Form Labels where
  write ls := .object (ls.entries.map fun e => (e.1, .text e.2))
  read _ d := (Document.readPairs Document.readString d).map Table.ofList

end Labels

/-- Values asked for, by label. -/
structure Selector where
  required : Labels
  deriving DecidableEq

namespace Selector

/-- Selects every object. -/
def everything : Selector := ⟨.empty⟩

/-- Asks also for a label. A label asked for twice has to have the later value. -/
def and (s : Selector) (label value : String) : Selector :=
  ⟨s.required.insert label value⟩

def ofLabel (label value : String) : Selector := everything.and label value

/-- Whether labels have all the values asked for. -/
def selects (s : Selector) (labels : Labels) : Bool :=
  s.required.entries.all fun e => labels.find? e.1 == some e.2

@[simp] theorem selects_everything (labels : Labels) : everything.selects labels = true := rfl

theorem selects_ofLabel (label value : String) (labels : Labels) :
    (ofLabel label value).selects labels = (labels.find? label == some value) := by
  simp [ofLabel, and, everything, selects, Table.insert, Table.empty, Entries.insert]

end Selector

end GameFleet
