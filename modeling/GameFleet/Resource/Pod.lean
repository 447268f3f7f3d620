import GameFleet.Resource.Meta
import GameFleet.Resource.Template

/-!
# Pods and nodes

A pod is the workload of one instance, and a node is where pods run. The orchestrator
puts pods on nodes and reports their phase; the control plane makes pods and reads
both.
-/

namespace GameFleet

/-! ## Pods -/

/-- The life of a workload as the orchestrator reports it. -/
inductive PodPhase where
  | pending
  | running
  | succeeded
  | failed
  | unknown
  deriving DecidableEq, Repr

instance : Named PodPhase where
  all := [.pending, .running, .succeeded, .failed, .unknown]
  name
    | .pending => "Pending"
    | .running => "Running"
    | .succeeded => "Succeeded"
    | .failed => "Failed"
    | .unknown => "Unknown"

inductive RestartPolicy where
  | always
  | onFailure
  | never
  deriving DecidableEq, Repr

instance : Named RestartPolicy where
  all := [.always, .onFailure, .never]
  name
    | .always => "Always"
    | .onFailure => "OnFailure"
    | .never => "Never"

structure PodSpec where
  containers : List Container
  restartPolicy : RestartPolicy
  /-- The node that the pod was put on. -/
  nodeName : Option String
  deriving DecidableEq, Repr

def PodSpec.fields : Record PodSpec where
  title := "PodSpec"
  blank := ⟨[], .never, none⟩
  fields := [
    .mandatory "containers" containers fun v s => { s with containers := v },
    .defaulted "restartPolicy" restartPolicy fun v s => { s with restartPolicy := v },
    .optional "nodeName" nodeName fun v s => { s with nodeName := v }]

instance : Form PodSpec := PodSpec.fields.form

structure PodStatus where
  phase : PodPhase
  deriving DecidableEq, Repr

def PodStatus.fields : Record PodStatus where
  title := "PodStatus"
  blank := ⟨.pending⟩
  fields := [.defaulted "phase" phase fun v s => { s with phase := v }]

instance : Form PodStatus := PodStatus.fields.form

structure Pod where
  metadata : Meta
  spec : PodSpec
  status : PodStatus
  deriving DecidableEq

def Pod.fields : Record Pod where
  title := "Pod"
  blank := ⟨default, PodSpec.fields.blank, PodStatus.fields.blank⟩
  fields := [
    .mandatory "metadata" metadata fun v p => { p with metadata := v },
    .defaulted "spec" spec fun v p => { p with spec := v },
    .defaulted "status" status fun v p => { p with status := v }]

instance : Form Pod := Pod.fields.form

instance : Resource Pod where
  kind := "Pod"
  metadata := Pod.metadata
  setMeta p m := { p with metadata := m }
  metadata_setMeta _ _ := rfl
  setMeta_metadata _ := rfl
  setMeta_setMeta _ _ _ := rfl

/-- The pod an instance with these pods is bound to: the first that runs, or else the
first. -/
def Pod.select? (pods : List Pod) : Option Pod :=
  (pods.find? fun p => p.status.phase = .running).or pods.head?

/-! ## Nodes -/

inductive AddressType where
  | external
  | internal
  | hostname
  deriving DecidableEq, Repr

instance : Named AddressType where
  all := [.external, .internal, .hostname]
  name
    | .external => "ExternalIP"
    | .internal => "InternalIP"
    | .hostname => "Hostname"

structure NodeAddress where
  type : AddressType
  address : String
  deriving DecidableEq, Repr

def NodeAddress.fields : Record NodeAddress where
  title := "NodeAddress"
  blank := ⟨.external, ""⟩
  fields := [
    .mandatory "type" type fun v a => { a with type := v },
    .mandatory "address" address fun v a => { a with address := v }]

instance : Form NodeAddress := NodeAddress.fields.form

structure NodeStatus where
  addresses : List NodeAddress
  deriving DecidableEq, Repr

def NodeStatus.fields : Record NodeStatus where
  title := "NodeStatus"
  blank := ⟨[]⟩
  fields := [.defaulted "addresses" addresses fun v s => { s with addresses := v }]

instance : Form NodeStatus := NodeStatus.fields.form

structure Node where
  metadata : Meta
  status : NodeStatus
  deriving DecidableEq

namespace Node

def fields : Record Node where
  title := "Node"
  blank := ⟨default, NodeStatus.fields.blank⟩
  fields := [
    .mandatory "metadata" metadata fun v n => { n with metadata := v },
    .defaulted "status" status fun v n => { n with status := v }]

instance : Form Node := fields.form

instance : Resource Node where
  kind := "Node"
  metadata := metadata
  setMeta n m := { n with metadata := m }
  metadata_setMeta _ _ := rfl
  setMeta_metadata _ := rfl
  setMeta_setMeta _ _ _ := rfl

/-- The first address of a type. -/
def address? (n : Node) (type : AddressType) : Option String :=
  (n.status.addresses.find? fun a => a.type = type).map (·.address)

/-- Where the node is reached from outside the cluster: its first external address, or
else its first internal one. -/
def reachableAddress? (n : Node) : Option String :=
  (n.address? .external).or (n.address? .internal)

end Node

end GameFleet
