import Schematic.Diagram.Basic
import Schematic.Drawing.Names

/-!
# Drawing stack templates

Resources by their logical identifiers with edges from what they depend on, and the parameters.

## Main definitions

- `CloudFormation.typeRules` — the style of a resource by its type
- `CloudFormation.draw` — the diagram of a template
-/

namespace Schematic.Drawing.CloudFormation

/-- The style of a resource by its type. -/
def typeRules : StyleRules := [
  (["securitygroup", "iam::", "kms::"], .security),
  (["elasticloadbalancing"], .loadbalancer),
  (["::vpc", "subnet", "gateway", "routetable"], .network),
  (["rds::", "dynamodb", "docdb", "neptune"], .database),
  (["s3::", "efs::"], .storage),
  (["ec2::instance", "lambda", "ecs::", "autoscaling"], .compute)]

/-- The styles that are defined in every such diagram. -/
def styles : List Style :=
  [.security, .loadbalancer, .network, .database, .storage, .compute, .parameter]

/-- The resources of a template that can be drawn. -/
def resources (tree : Value) : Entries Value :=
  (tree.getEntries "Resources").filter fun (_, config) => config.isMap

/-- The node of a resource. -/
def resourceNode (id : String) (config : Value) : Except NumberError Diagram.Node := do
  let type ← config.nameOr "Type" "Unknown"
  return ⟨id, [type, "☁️ " ++ id], classify? typeRules type⟩

/-- Edges from what a resource depends on. -/
def dependencies (id : String) (config : Value) : List Diagram.Link :=
  (config.get "DependsOn").textItems.map fun dependency => { source := dependency, target := id }

/-- The node of a parameter. -/
def parameterNode (name : String) (config : Value) : Except NumberError Diagram.Node := do
  let type ← config.getText "Type"
  let shown := if type = "" then [] else ["🔧 " ++ type]
  return ⟨"param_" ++ name, ["Parameter", "⚙️ " ++ name] ++ shown, some .parameter⟩

/-- The diagram of a template. -/
def draw (tree : Value) : Except NumberError Diagram := do
  let resourceNodes ← (resources tree).mapM fun (id, config) => resourceNode id config
  let parameterNodes ← (tree.getEntries "Parameters").mapM fun (name, config) =>
    parameterNode name config
  return (Diagram.empty .graph styles)
    |>.nodes resourceNodes
    |>.nodes parameterNodes
    |>.links ((resources tree).flatMap fun (id, config) => dependencies id config)

end Schematic.Drawing.CloudFormation
