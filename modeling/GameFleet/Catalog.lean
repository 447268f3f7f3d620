import GameFleet.Manifest

/-!
# Types by name

The types whose values can be stated in JSON, under the names they have there. A
`Catalog.Entry` reads a value of its type and writes it again, in compact form.
-/

namespace GameFleet.Catalog

structure Entry where
  name : String
  /-- The compact text of the value that a text states. -/
  compact : String → Except Refusal String
  /-- The text of the value with no field given, for types that have one. -/
  blank : Option String

def entry {α : Type} [Form α] (name : String) (blank : Option α) : Entry where
  name := name
  compact s := (Form.ofText (α := α) s).map Form.toText
  blank := blank.map Form.toText

def entries : List Entry := [
  entry "PodTemplate" (some Template.fields.blank),
  entry "ContainerSpec" (some Container.fields.blank),
  entry "ResourceLimits" (some ResourceLimits.fields.blank),
  entry (α := ContainerPort) "ContainerPort" none,
  entry "Protocol" (some Protocol.udp),
  entry (α := EnvVar) "EnvVar" none,
  entry "Pod" (some Pod.fields.blank),
  entry "PodSpec" (some PodSpec.fields.blank),
  entry "RestartPolicy" (some RestartPolicy.never),
  entry "PodStatus" (some PodStatus.fields.blank),
  entry "PodPhase" (some PodPhase.pending),
  entry "Node" (some Node.fields.blank),
  entry "NodeStatus" (some NodeStatus.fields.blank),
  entry (α := NodeAddress) "NodeAddress" none,
  entry (α := AddressType) "NodeAddressType" none,
  entry "DedicatedGameServer" (some GameServer.fields.blank),
  entry "DedicatedGameServerSpec" (some GameServerSpec.fields.blank),
  entry "DedicatedGameServerStatus" (some GameServerStatus.fields.blank),
  entry "GameServerHealth" (some Health.creating),
  entry "GameServerState" (some SessionState.idle),
  entry "DedicatedGameServerCollection" (some Collection.fields.blank),
  entry "DedicatedGameServerCollectionSpec" (some CollectionSpec.fields.blank),
  entry "FailBehavior" (some FailBehavior.remove),
  entry "AutoScalerDetails" (some Autoscaler.fields.blank),
  entry "DedicatedGameServerCollectionStatus" (some CollectionStatus.fields.blank),
  entry "CollectionHealth" (some CollectionHealth.creating),
  entry "ObjectMeta" (some Meta.fields.blank),
  entry (α := OwnerReference) "OwnerReference" none,
  entry (α := Key) "ObjectKey" none,
  entry "Manifest" (some Manifest.fields.blank)]

def find? (name : String) : Option Entry := entries.find? fun e => e.name = name

/-- The name of the value of `α` that a text states. -/
def nameOf (α : Type) [Named α] (s : String) : Except Refusal String :=
  (Form.ofText (α := α) s).map Named.name

/-- The types whose values are names, with what reads such a value and gives its name. -/
def choices : List (String × (String → Except Refusal String)) := [
  ("GameServerHealth", nameOf Health),
  ("GameServerState", nameOf SessionState),
  ("PodPhase", nameOf PodPhase),
  ("CollectionHealth", nameOf CollectionHealth),
  ("FailBehavior", nameOf FailBehavior),
  ("Protocol", nameOf Protocol),
  ("RestartPolicy", nameOf RestartPolicy),
  ("NodeAddressType", nameOf AddressType)]

end GameFleet.Catalog
