import GameFleet.Resource.Collection

/-!
# Manifests

A `Manifest` lists objects that are to be there before the controllers start. Each of
its four lists may be left out.
-/

namespace GameFleet

structure Manifest where
  nodes : List Node
  collections : List Collection
  gameServers : List GameServer
  pods : List Pod
  deriving DecidableEq

namespace Manifest

def fields : Record Manifest where
  title := "Manifest"
  blank := ⟨[], [], [], []⟩
  fields := [
    .defaulted "nodes" nodes fun v m => { m with nodes := v },
    .defaulted "collections" collections fun v m => { m with collections := v },
    .defaulted "gameServers" gameServers fun v m => { m with gameServers := v },
    .defaulted "pods" pods fun v m => { m with pods := v }]

instance : Form Manifest := fields.form

/-- Why there is no manifest at a path. -/
inductive LoadError where
  | unreadable
  | invalid (cause : Refusal)
  deriving DecidableEq, Repr

/-- What is reported of a file at `path`, without the cause. -/
def LoadError.message (path : String) : LoadError → String
  | .unreadable => "failed to read manifest " ++ path
  | .invalid _ => "invalid manifest " ++ path

/-- The manifest in a file with these contents, if there is a file. -/
def ofFile (contents : Option String) : Except LoadError Manifest :=
  match contents with
  | none => .error .unreadable
  | some text => (Form.ofText text).mapError .invalid

end Manifest

end GameFleet
