import Schematic.Diagram.Basic
import Schematic.Drawing.Names
import Schematic.Text.Distinct

/-!
# Drawing cluster manifests

Resources stand in one group per namespace. Services point at the workloads of their namespace
if they select anything, and ingresses at the services that they route to.

## Main definitions

- `Kubernetes.Resource` — a manifest with what names it
- `Kubernetes.namespaces` — the namespaces in order of first appearance
- `Kubernetes.draw` — the diagram of a list of manifests
-/

namespace Schematic.Drawing.Kubernetes

/-- The style of a kind of resource. -/
def kindStyle? : String → Option Style
  | "Deployment" | "StatefulSet" | "DaemonSet" => some .workload
  | "Service" => some .service
  | "ConfigMap" | "Secret" => some .config
  | "PersistentVolumeClaim" => some .storage
  | "Ingress" => some .ingress
  | _ => none

/-- The styles that are defined in every such diagram. -/
def styles : List Style :=
  [.workload, .service, .config, .storage, .ingress]

/-- At most this many ports of a container are listed. -/
def maxContainerPorts : Nat := 2

/-! ## Resources -/

/-- A manifest with what names it. -/
structure Resource where
  kind : String
  name : String
  space : String
  body : Value

/-- The name of the node of a resource. -/
def Resource.nodeName (r : Resource) : String :=
  r.kind ++ "_" ++ r.name ++ "_" ++ r.space

/-- A manifest at an index, which names it if nothing else does. -/
def resource (index : Nat) (body : Value) : Except NumberError Resource := do
  let metadata := body.get "metadata"
  return { kind := ← body.nameOr "kind" "Unknown"
           name := ← metadata.nameOr "name" s!"resource_{index}"
           space := ← metadata.nameOr "namespace" "default"
           body := body }

/-- The resources among documents, which are the mappings. -/
def resources (documents : List Value) : Except NumberError (List Resource) :=
  (documents.zipIdx.filter fun (body, _) => body.isMap).mapM fun (body, index) =>
    resource index body

/-- The namespaces of resources, in order of first appearance. -/
def namespaces (rs : List Resource) : List String :=
  Text.distinct (rs.map Resource.space)

/-- The resources of a namespace. -/
def members (rs : List Resource) (space : String) : List Resource :=
  rs.filter fun r => r.space == space

/-! ## Labels -/

/-- Processor and memory of a container, as asked for or as allowed. -/
def amounts (title : String) (amounts : Value) : Except NumberError (List String) := do
  if (amounts.get "cpu").isTruthy || (amounts.get "memory").isTruthy then
    let cpu ← amounts.getText "cpu" "N/A"
    let memory ← amounts.getText "memory" "N/A"
    return [title ++ ": " ++ cpu ++ "/" ++ memory]
  else return []

/-- The lines for the first of several containers. -/
def containerLines (first : Value) (others : Nat) : Except NumberError (List String) := do
  let image ← first.nameOr "image" "unknown"
  let requests ← amounts "📈 Requests" (first.path ["resources", "requests"])
  let limits ← amounts "📉 Limits" (first.path ["resources", "limits"])
  let ports ← ((first.getListed "ports").take maxContainerPorts).mapM fun port =>
    return "🌐 " ++ (← port.getText "containerPort")
  let env := first.getListed "env"
  let environment := if env.isEmpty then [] else [s!"⚙️ {env.length} env vars"]
  let more := if others = 0 then [] else [s!"📦 +{others} more containers"]
  return ["📦 " ++ image] ++ requests ++ limits ++ ports ++ environment ++ more

/-- The lines for a workload. -/
def workloadLines (spec : Value) : Except NumberError (List String) := do
  let replicas ← if (spec.get "replicas").isTruthy
    then do pure ["📊 " ++ (← spec.getText "replicas") ++ " replicas"] else pure []
  match ((spec.path ["template", "spec"]).getListed "containers").filter Value.isMap with
  | [] => return replicas
  | first :: others => return replicas ++ (← containerLines first others.length)

/-- A line for an amount of storage, if there is any. -/
def storageLine (storage : Value) : Except NumberError (List String) := do
  if storage.isTruthy then return ["💾 " ++ (← storage.text)] else return []

/-- The further lines for a workload with state. -/
def statefulLines (spec : Value) : Except NumberError (List String) := do
  match spec.getListed "volumeClaimTemplates" with
  | [] => return ["💾 StatefulSet"]
  | first :: others =>
    let storage ← storageLine (first.path ["spec", "resources", "requests", "storage"])
    return ["💾 StatefulSet", s!"💾 {others.length + 1} volume templates"] ++ storage

/-- A port of a service with its target, if it has one. -/
def portMapping (port : Value) : Except NumberError String := do
  let source ← port.getText "port"
  let target ← port.getText "targetPort"
  return if target = "" then source else source ++ ":" ++ target

/-- The lines for a service. -/
def serviceLines (spec : Value) : Except NumberError (List String) := do
  let type ← spec.nameOr "type" "ClusterIP"
  let ports := (spec.getListed "ports").filter Value.isMap
  let mappings ← ports.mapM portMapping
  let shown := if ports.isEmpty then [] else ["🌐 " ++ Text.join ", " mappings]
  return ["🔗 Type: " ++ type] ++ shown

/-- The line for a resource that holds data under keys. -/
def dataLines (body : Value) : List String :=
  let data := (body.getEntries "data").keys
  -- A key that stands in both counts once.
  let others := (body.getEntries "stringData").keys.filter fun key => !data.contains key
  if body.entries.hasKey "data" || body.entries.hasKey "stringData"
    then [s!"🔑 {data.length + others.length} keys"] else []

/-- The lines for a claim of storage. -/
def claimLines (spec : Value) : Except NumberError (List String) := do
  let storage ← storageLine (spec.path ["resources", "requests", "storage"])
  let modes ← (spec.getListed "accessModes").mapM Value.text
  let shown := if modes.isEmpty then [] else ["🔐 " ++ Text.join ", " modes]
  return storage ++ shown

/-- The line for the hosts of an ingress. -/
def hostLines (spec : Value) : Except NumberError (List String) := do
  let hosts ← (spec.getListed "rules").mapM fun rule => rule.getText "host"
  let named := hosts.filter (· != "")
  return if named.isEmpty then [] else ["🌍 " ++ Text.join ", " named]

/-- The lines that only some kinds have. -/
def kindLines (r : Resource) : Except NumberError (List String) :=
  let spec := r.body.get "spec"
  match r.kind with
  | "Deployment" | "DaemonSet" => workloadLines spec
  | "StatefulSet" => do return (← workloadLines spec) ++ (← statefulLines spec)
  | "Service" => if spec.entries.isEmpty then return [] else serviceLines spec
  | "ConfigMap" | "Secret" => return dataLines r.body
  | "PersistentVolumeClaim" => claimLines spec
  | "Ingress" => hostLines spec
  | _ => return []

/-- The line for the labels of a resource. -/
def labelCount (body : Value) : List String :=
  match body.path ["metadata", "labels"] with
  | .map labels => [s!"🏷️ {labels.length} labels"]
  | _ => []

/-- The node of a resource. -/
def node (r : Resource) : Except NumberError Diagram.Node := do
  let heading := ["<b>" ++ r.name ++ "</b>", "📋 " ++ r.kind] ++ labelCount r.body
  return ⟨r.nodeName, heading ++ (← kindLines r), kindStyle? r.kind⟩

/-! ## Edges -/

/-- The kinds of workload that a service can select. -/
def isSelectable (kind : String) : Bool :=
  kind == "Deployment" || kind == "StatefulSet"

/-- Edges from a service to the workloads of its namespace. -/
def selections (r : Resource) (peers : List Resource) : List Diagram.Link :=
  -- What the selector says does not matter, as long as it says something.
  if (r.body.get "spec").getEntries "selector" |>.isEmpty then []
  else (peers.filter fun peer => isSelectable peer.kind).map fun peer =>
    { source := r.nodeName, target := peer.nodeName, label := "selects" }

/-- The name of the service behind a backend, in its newer or its older form. -/
def backendName (backend : Value) : Except NumberError String := do
  let name ← (backend.get "service").getText "name"
  -- The older form is only looked at without a name in the newer one.
  if name = "" then backend.getText "serviceName" else return name

/-- The backends of an ingress: the default ones, then those of the paths of its rules. -/
def backends (spec : Value) : List Value :=
  spec.get "defaultBackend" :: spec.get "backend" ::
    (spec.getListed "rules").flatMap fun rule =>
      ((rule.get "http").getListed "paths").map fun path => path.get "backend"

/-- The distinct names of the services behind an ingress. -/
def backendNames (spec : Value) : Except NumberError (List String) := do
  let names ← (backends spec).mapM backendName
  return Text.distinct (names.filter (· != ""))

/-- Edges from an ingress to the services that it names; of several services of one name the
last one is meant. -/
def routes (r : Resource) (peers : List Resource) : Except NumberError (List Diagram.Link) := do
  let services := peers.filter fun peer => peer.kind == "Service"
  let names ← backendNames (r.body.get "spec")
  return names.filterMap fun name =>
    (services.reverse.find? fun service => service.name == name).map fun service =>
      { source := r.nodeName, target := service.nodeName, label := "routes to", dotted := true }

/-- The edges from a resource. -/
def links (rs : List Resource) (r : Resource) : Except NumberError (List Diagram.Link) :=
  let peers := members rs r.space
  if r.kind = "Service" then return selections r peers
  else if r.kind = "Ingress" then routes r peers
  else return []

/-! ## The diagram -/

/-- The diagram of a list of manifests. -/
def draw (documents : List Value) : Except NumberError Diagram := do
  let rs ← resources documents
  let groups ← (namespaces rs).mapM fun space => return (space, ← (members rs space).mapM node)
  let edges ← rs.mapM (links rs)
  let grouped := groups.foldl (fun d (space, nodes) =>
    d.group ("NS_" ++ space) ("🏠 Namespace: " ++ space) nodes)
    (Diagram.empty .flowchart styles)
  return grouped.links edges.flatten

end Schematic.Drawing.Kubernetes
