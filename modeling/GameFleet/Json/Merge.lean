import GameFleet.Json.Value
import GameFleet.Table

/-!
# Merge patches

A merge patch says how to change a JSON value. A patch that is an object changes the
members it names, each by the patch under the name, and takes those away whose patch is
`null`; any other patch takes the place of the value. `Json.merged` is the value after a
patch. Objects that a patch changes have their members in the order of the names.
-/

namespace GameFleet.Json

/-- The members of an object. Other values have none. -/
def members : Json → List (String × Json)
  | .object ms => ms
  | _ => []

mutual

/-- The value `target` after a patch. -/
def merged (target : Json) : Json → Json
  | .object patches => .object (mergedMembers (Table.ofList target.members) patches).entries
  | patch => patch

/-- The members of an object after the patches of some of them. -/
def mergedMembers (ms : Table String Json) : List (String × Json) → Table String Json
  | [] => ms
  | (name, .null) :: patches => mergedMembers (ms.erase name) patches
  | (name, patch) :: patches =>
    mergedMembers (ms.insert name (merged ((ms.find? name).getD .null) patch)) patches

end

example : (merged (.object [("a", .nat 1), ("b", .nat 2)])
    (.object [("b", .null), ("c", .object [("d", .nat 3), ("e", .null)])])).render =
    "\x7b\"a\":1,\"c\":\x7b\"d\":3\x7d\x7d" := by decide +kernel

end GameFleet.Json
