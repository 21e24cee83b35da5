import Schematic.Diagram.Basic
import Schematic.Drawing.Names
import Schematic.Text.Distinct

/-!
# Drawing resource manager templates

Every resource of the list is a node. A dependency is an expression that only a deployment could
resolve, so each distinct one becomes a placeholder node of its own.

## Main definitions

- `ResourceManager.typeRules` — the style of a resource by its type
- `ResourceManager.draw` — the diagram of a template
-/

namespace Schematic.Drawing.ResourceManager

/-- The style of a resource by its type. -/
def typeRules : StyleRules := [
  (["networksecuritygroups"], .security),
  (["loadbalancers", "applicationgateways"], .loadbalancer),
  (["microsoft.network"], .network),
  (["microsoft.sql", "documentdb", "dbfor"], .database),
  (["storageaccounts"], .storage),
  (["virtualmachines", "microsoft.web", "containerinstances"], .compute)]

/-- The styles that are defined in every such diagram. -/
def styles : List Style :=
  [.security, .loadbalancer, .network, .database, .storage, .compute, .dependency]

/-- The resources of a template with their indexes in its list. -/
def resources (tree : Value) : List (Value × Nat) :=
  (tree.getListed "resources").zipIdx.filter fun (resource, _) => resource.isMap

/-- The node of a resource. -/
def resourceNode (resource : Value) (index : Nat) : Except NumberError Diagram.Node := do
  let type ← resource.nameOr "type" "Unknown"
  let name ← resource.nameOr "name" s!"resource_{index}"
  let location := ((resource.get "location").str?.filter (· != "")).toList
  -- The index tells resources of the same type and name apart.
  return ⟨s!"{type}_{name}_{index}",
    [type, "🔷 " ++ name] ++ location.map (fun place => "📍 " ++ place), classify? typeRules type⟩

/-- The name of the placeholder node of a dependency. -/
def placeholderId (dependency : String) : String :=
  dependency ++ "_dep"

/-- The expressions that a resource depends on. -/
def dependencies (resource : Value) : List String :=
  (resource.get "dependsOn").textItems

/-- The placeholder node of a dependency. -/
def placeholder (dependency : String) : Diagram.Node :=
  ⟨placeholderId dependency, [dependency], some .dependency⟩

/-- The diagram of a template. -/
def draw (tree : Value) : Except NumberError Diagram := do
  let drawn ← (resources tree).mapM fun (resource, index) =>
    return (← resourceNode resource index, dependencies resource)
  return (Diagram.empty .flowchart styles)
    |>.nodes (drawn.map Prod.fst)
    |>.nodes ((Text.distinct (drawn.flatMap Prod.snd)).map placeholder)
    |>.links (drawn.flatMap fun (node, dependencies) => dependencies.map fun dependency =>
        { source := placeholderId dependency, target := node.id })

end Schematic.Drawing.ResourceManager
