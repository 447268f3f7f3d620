import GameFleet.Json.Reading

/-!
# Workload templates

A `Template` lists the containers of a workload. An instance and the pod made for it
have the same template, apart from what the pod adds to the environment. A container
port may have a host port, by which it is reached from outside the cluster.
-/

namespace GameFleet

/-- The number of a port. -/
abbrev Port := UInt16

inductive Protocol where
  | udp
  | tcp
  deriving DecidableEq, Repr

instance : Named Protocol where
  all := [.udp, .tcp]
  name
    | .udp => "UDP"
    | .tcp => "TCP"

/-! ## Parts of a container -/

structure ContainerPort where
  name : Option String
  containerPort : Port
  hostPort : Option Port
  protocol : Protocol
  deriving DecidableEq, Repr

namespace ContainerPort

/-- A port of a container that no host port leads to. -/
def new (containerPort : Port) (protocol : Protocol) : ContainerPort :=
  ⟨none, containerPort, none, protocol⟩

def fields : Record ContainerPort where
  title := "ContainerPort"
  blank := new 0 .udp
  fields := [
    .optional "name" name fun v p => { p with name := v },
    .mandatory "containerPort" containerPort fun v p => { p with containerPort := v },
    .optional "hostPort" hostPort fun v p => { p with hostPort := v },
    .defaulted "protocol" protocol fun v p => { p with protocol := v }]

instance : Form ContainerPort := fields.form

end ContainerPort

/-- A variable of a container's environment. -/
structure EnvVar where
  name : String
  value : String
  deriving DecidableEq, Repr

def EnvVar.fields : Record EnvVar where
  title := "EnvVar"
  blank := ⟨"", ""⟩
  fields := [
    .mandatory "name" name fun v e => { e with name := v },
    .mandatory "value" value fun v e => { e with value := v }]

instance : Form EnvVar := EnvVar.fields.form

/-- Limits as the orchestrator writes quantities. -/
structure ResourceLimits where
  cpu : Option String
  memory : Option String
  deriving DecidableEq, Repr

def ResourceLimits.fields : Record ResourceLimits where
  title := "ResourceLimits"
  blank := ⟨none, none⟩
  fields := [
    .optional "cpu" cpu fun v l => { l with cpu := v },
    .optional "memory" memory fun v l => { l with memory := v }]

instance : Form ResourceLimits := ResourceLimits.fields.form

/-! ## Containers and templates -/

structure Container where
  name : String
  image : String
  resources : ResourceLimits
  ports : List ContainerPort
  env : List EnvVar
  deriving DecidableEq, Repr

def Container.fields : Record Container where
  title := "ContainerSpec"
  blank := ⟨"", "", ⟨none, none⟩, [], []⟩
  fields := [
    .mandatory "name" name fun v c => { c with name := v },
    .mandatory "image" image fun v c => { c with image := v },
    .defaulted "resources" resources fun v c => { c with resources := v },
    .listed "ports" ports fun v c => { c with ports := v },
    .listed "env" env fun v c => { c with env := v }]

instance : Form Container := Container.fields.form

structure Template where
  containers : List Container
  deriving DecidableEq, Repr

namespace Template

def fields : Record Template where
  title := "PodTemplate"
  blank := ⟨[]⟩
  fields := [.mandatory "containers" containers fun v t => { t with containers := v }]

instance : Form Template := fields.form

instance : Inhabited Template := ⟨⟨[]⟩⟩

/-- The images of the containers, in their order. -/
def images (t : Template) : List String := t.containers.map (·.image)

/-- The ports of all containers, in the order of the containers. -/
def ports (t : Template) : List ContainerPort := t.containers.flatMap (·.ports)

/-- The template with every port changed. -/
def mapPorts (f : ContainerPort → ContainerPort) (t : Template) : Template :=
  ⟨t.containers.map fun c => { c with ports := c.ports.map f }⟩

theorem ports_mapPorts (f : ContainerPort → ContainerPort) (t : Template) :
    (t.mapPorts f).ports = t.ports.map f := by
  simp [ports, mapPorts, List.flatMap_map, List.map_flatMap]

/-- Gives host ports to the ports that want one, in their order. Returns the host ports
that are left. -/
def fillPorts (wants : ContainerPort → Bool) :
    List ContainerPort → List Port → List ContainerPort × List Port
  | [], hostPorts => ([], hostPorts)
  | p :: ps, hostPorts =>
    if wants p then
      let (ps, left) := fillPorts wants ps hostPorts.tail
      ((match hostPorts with
        | h :: _ => { p with hostPort := some h }
        | [] => p) :: ps, left)
    else
      let (ps, left) := fillPorts wants ps hostPorts
      (p :: ps, left)

/-- Gives host ports to the ports that want one, container by container. -/
def fillContainers (wants : ContainerPort → Bool) :
    List Container → List Port → List Container × List Port
  | [], hostPorts => ([], hostPorts)
  | c :: cs, hostPorts =>
    let (ports, left) := fillPorts wants c.ports hostPorts
    let (cs, left) := fillContainers wants cs left
    ({ c with ports } :: cs, left)

/-- The template in which the ports that want a host port have one of a list, in their
order. -/
def filled (t : Template) (wants : ContainerPort → Bool) (hostPorts : List Port) : Template :=
  ⟨(fillContainers wants t.containers hostPorts).1⟩

theorem fillPorts_append (wants : ContainerPort → Bool) (ps qs : List ContainerPort)
    (hostPorts : List Port) :
    fillPorts wants (ps ++ qs) hostPorts =
      ((fillPorts wants ps hostPorts).1 ++
        (fillPorts wants qs (fillPorts wants ps hostPorts).2).1,
        (fillPorts wants qs (fillPorts wants ps hostPorts).2).2) := by
  induction ps generalizing hostPorts with
  | nil => rfl
  | cons p ps ih =>
    simp only [List.cons_append, fillPorts]
    split <;> simp [ih]

/-- The ports of a filled template are the filled ports of the template. -/
theorem ports_filled (t : Template) (wants : ContainerPort → Bool) (hostPorts : List Port) :
    (t.filled wants hostPorts).ports = (fillPorts wants t.ports hostPorts).1 := by
  obtain ⟨cs⟩ := t
  simp only [filled, ports]
  induction cs generalizing hostPorts with
  | nil => rfl
  | cons c cs ih => simp [fillContainers, fillPorts_append, ih]

end Template

end GameFleet
