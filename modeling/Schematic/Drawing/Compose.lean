import Schematic.Diagram.Basic
import Schematic.Drawing.Names

/-!
# Drawing container compositions

Services, networks and volumes stand in groups of their own. Services point at what depends on
them, at their networks, and are pointed at by their named volumes.

## Main definitions

- `Compose.imageRules` — the style of a service by its image
- `Compose.namedVolume?` — the volume that a mount names
- `Compose.draw` — the diagram of a tree
-/

namespace Schematic.Drawing.Compose

/-- The style of a service by its image. -/
def imageRules : StyleRules := [
  (["nginx", "apache"], .webServer),
  (["postgres", "mysql", "mongo", "mariadb"], .database),
  (["redis", "memcached"], .cache),
  (["node", "python", "java", "golang"], .application)]

/-- The styles that are defined in every such diagram. -/
def styles : List Style :=
  [.webServer, .database, .cache, .application, .network, .volume]

/-- At most this many ports are listed. -/
def maxPorts : Nat := 3

/-- A command is cut to this many characters. -/
def commandLimit : Nat := 20

/-! ## Services -/

/-- A port in its short form. -/
def portText : Value → Except NumberError String
  | .map es => do
    let port := Value.map es
    let published ← port.getText "published"
    let target ← port.getText "target"
    return if published = "" then target else published ++ ":" ++ target
  | v => v.text

/-- The ports of a service, the first ones listed and the others counted. -/
def portLines (ports : List Value) : Except NumberError (List String) := do
  let listed ← (ports.take maxPorts).mapM fun port => return "🌐 " ++ (← portText port)
  let others := if ports.length > maxPorts
    then [s!"🌐 +{ports.length - maxPorts} more ports"] else []
  return listed ++ others

/-- How many entries a list or mapping has; any other value counts as one. -/
def count : Value → Nat
  | .list xs => xs.length
  | .map es => es.length
  | _ => 1

/-- A command on one line. -/
def commandText : Value → Except NumberError String
  | .list parts => do return Text.join " " (← parts.mapM Value.text)
  | v => v.text

/-- A line for a value under a key, if it counts as present. -/
def lineFor (config : Value) (key : String) (line : Value → Except NumberError String) :
    Except NumberError (List String) :=
  let value := config.get key
  if value.isTruthy then do return [← line value] else return []

/-- The label of a service. -/
def serviceLabel (name : String) (config : Value) : Except NumberError (List String) := do
  let image ← config.nameOr "image" "custom"
  let ports ← portLines (config.get "ports").items
  let environment ← lineFor config "environment" fun v => return s!"⚙️ {count v} env vars"
  -- Volumes are counted as items of a list, unlike variables of the environment.
  let mounts := (config.get "volumes").items
  let volumes := if mounts.isEmpty then [] else [s!"💾 {mounts.length} volumes"]
  let restart ← lineFor config "restart" fun v => return "🔄 restart: " ++ (← v.scalarText "")
  let directory ← lineFor config "working_dir" fun v => return "📁 " ++ (← v.scalarText "")
  let command ← lineFor config "command" fun v =>
    return "▶️ " ++ truncate (← commandText v) commandLimit
  return ["<b>" ++ name ++ "</b>", "📦 " ++ image] ++ ports ++ environment ++ volumes ++
    restart ++ directory ++ command

/-- The node of a service. -/
def serviceNode (name : String) (config : Value) : Except NumberError Diagram.Node := do
  let image ← config.nameOr "image" "custom"
  return ⟨name, ← serviceLabel name config, classify? imageRules image⟩

/-- Edges from what a service depends on. -/
def dependencies (name : String) (config : Value) : List Diagram.Link :=
  (config.get "depends_on").names.map fun dependency =>
    { source := dependency, target := name, label := "depends on" }

/-! ## Networks -/

/-- The node of a network. -/
def networkNode (name : String) (config : Value) : Except NumberError Diagram.Node := do
  let driver ← config.nameOr "driver" "bridge"
  return ⟨"network_" ++ name, ["🌐 " ++ name, "Driver: " ++ driver], some .network⟩

/-- Edges to the networks of a service. -/
def connections (name : String) (config : Value) : List Diagram.Link :=
  (config.get "networks").names.map fun network =>
    { source := name, target := "network_" ++ network, label := "connects to", dotted := true }

/-! ## Volumes -/

/-- The node of a volume. -/
def volumeNode (name : String) (config : Value) : Except NumberError Diagram.Node := do
  let driver ← config.nameOr "driver" "local"
  return ⟨"volume_" ++ name, ["💾 " ++ name, "Driver: " ++ driver], some .volume⟩

/-- The volume that a mount in short form names; paths name none. -/
def shortVolume? (mount : String) : Option String :=
  match Text.cutAtChar? ':' mount.toList with
  | some (name, _) =>
    -- A path of the host is no volume.
    if name.head?.any fun c => c == '.' || c == '/' || c == '~' then none
    else some (String.ofList name)
  | none => none

/-- The volume that a mount names. -/
def namedVolume? : Value → Except NumberError (Option String)
  | .map es => do
    let mount := Value.map es
    let source ← mount.getText "source"
    let type ← mount.getText "type" "volume"
    return if type = "volume" ∧ source ≠ "" then some source else none
  | .str mount => return shortVolume? mount
  | _ => return none

/-- Edges from the volumes of a service. -/
def mounts (name : String) (config : Value) : Except NumberError (List Diagram.Link) := do
  let volumes ← (config.get "volumes").items.mapM namedVolume?
  return (volumes.filterMap fun volume => volume.filter (· != "")).map fun volume =>
    { source := "volume_" ++ volume, target := name, label := "mounts to", dotted := true }

/-! ## The diagram -/

/-- The diagram of a composition. -/
def draw (tree : Value) : Except NumberError Diagram := do
  let services := tree.getEntries "services"
  let networks := tree.getEntries "networks"
  let volumes := tree.getEntries "volumes"
  let serviceNodes ← services.mapM fun (name, config) => serviceNode name config
  let networkNodes ← networks.mapM fun (name, config) => networkNode name config
  let volumeNodes ← volumes.mapM fun (name, config) => volumeNode name config
  -- Mounts and networks are only drawn if the composition declares any.
  let mountLinks ← if volumes.isEmpty then pure [] else
    services.mapM fun (name, config) => mounts name config
  let networkLinks := if networks.isEmpty then [] else
    services.flatMap fun (name, config) => connections name config
  return (Diagram.empty .flowchart styles)
    |>.group "Services" "🚀 Services" serviceNodes
    |>.groupUnlessEmpty "Networks" "🌐 Networks" networkNodes
    |>.groupUnlessEmpty "Volumes" "💾 Volumes" volumeNodes
    |>.links (services.flatMap fun (name, config) => dependencies name config)
    |>.links networkLinks
    |>.links mountLinks.flatten

end Schematic.Drawing.Compose
