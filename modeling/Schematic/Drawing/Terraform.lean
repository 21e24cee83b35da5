import Schematic.Diagram.Basic
import Schematic.Document.Basic
import Schematic.Drawing.Names
import Schematic.Drawing.Reference
import Schematic.Hcl.Configuration

/-!
# Drawing configurations of resources

Resources, data sources, variables and modules stand in groups of their own. Edges lead from what
a resource or module depends on or refers to.

## Main definitions

- `Terraform.typeRules` — the style of a resource by its type
- `Terraform.instances` — the blocks of a section by type and name
- `Terraform.draw` — the diagram of a document
-/

namespace Schematic.Drawing.Terraform

/-- The style of a resource by its type. -/
def typeRules : StyleRules := [
  (["vpc", "network", "subnet"], .network),
  (["instance", "server"], .compute),
  (["db", "database"], .database),
  (["lb", "balancer"], .loadbalancer),
  (["storage", "bucket"], .storage),
  (["security_group", "firewall", "iam"], .security)]

/-- The styles that are defined in every such diagram. -/
def styles : List Style :=
  [.network, .compute, .database, .loadbalancer, .storage, .security, .datasource,
    .inputVariable, .childModule]

/-- A description is cut to this many characters. -/
def descriptionLimit : Nat := 30

/-! ## Details by type -/

/-- One line of details about a resource. -/
inductive Detail where
  /-- The value under a key behind a sign and before a unit, if it counts as present. -/
  | value (sign key unit : String)
  /-- The number of items of a list, if there are any. -/
  | count (sign key title : String)
  /-- The first item of a list, if there is one. -/
  | first (sign key : String)
  /-- A remark where a flag is off. -/
  | off (sign key remark : String)
deriving DecidableEq, Repr

/-- The details that are shown for a type of resource. -/
def detailsOf : String → List Detail
  | "aws_instance" => [.value "💻 " "instance_type" "", .value "💿 " "ami" ""]
  | "aws_vpc" => [.value "🌐 " "cidr_block" ""]
  | "aws_subnet" => [.value "🌐 " "cidr_block" "", .value "📍 " "availability_zone" ""]
  | "aws_security_group" =>
    [.count "🔓 " "ingress" " ingress rules", .count "🔒 " "egress" " egress rules"]
  | "aws_db_instance" =>
    [.value "🔧 " "engine" "", .value "💻 " "instance_class" "",
      .value "💾 " "allocated_storage" "GB"]
  | "aws_lb" => [.value "⚖️ " "load_balancer_type" ""]
  | "aws_s3_bucket" => [.value "🪣 " "bucket" ""]
  | "azurerm_virtual_machine" => [.value "💻 " "vm_size" ""]
  | "azurerm_virtual_network" => [.first "🌐 " "address_space"]
  | "azurerm_subnet" => [.first "🌐 " "address_prefixes"]
  | "azurerm_storage_account" =>
    [.value "💾 " "account_tier" "", .value "🔁 " "account_replication_type" ""]
  | "google_compute_instance" => [.value "💻 " "machine_type" "", .value "📍 " "zone" ""]
  | "google_compute_network" => [.off "🌐 " "auto_create_subnetworks" "custom mode"]
  | "google_storage_bucket" => [.value "📍 " "location" ""]
  | _ => []

/-- The line of a detail, if the configuration has anything to show. -/
def Detail.line (config : Value) : Detail → Except NumberError (List String)
  | value sign key unit => do
    if (config.get key).isTruthy then return [sign ++ (← config.getText key) ++ unit]
    else return []
  | count sign key title =>
    let items := config.getListed key
    return if items.isEmpty then [] else [sign ++ toString items.length ++ title]
  | first sign key => do
    match config.getListed key with
    | [] => return []
    | item :: _ => return [sign ++ (← item.text)]
  | off sign key remark =>
    match config.get key with
    | .bool false => return [sign ++ remark]
    | _ => return []

/-! ## Nodes -/

/-- The blocks of a section as type, name and configuration. -/
def instances (sections : Entries Value) : List (String × String × Value) :=
  sections.flatMap fun (type, named) =>
    named.entries.map fun (name, config) => (type, name, config)

/-- The name of the node of a resource. -/
def resourceId (type name : String) : String :=
  type ++ "_" ++ name

/-- The node of a resource. -/
def resourceNode (type name : String) (config : Value) : Except NumberError Diagram.Node := do
  let details ← (detailsOf type).mapM (Detail.line config)
  let tags := match config.get "tags" with
    | .map tags => [s!"🏷️ {tags.length} tags"]
    | _ => []
  let count ← Detail.line config (.value "📊 count: " "count" "")
  return ⟨resourceId type name,
    ["<b>" ++ name ++ "</b>", "🏗️ " ++ type] ++ details.flatten ++ tags ++ count,
    classify? typeRules type⟩

/-- The node of a data source. -/
def dataNode (type name : String) (config : Value) : Diagram.Node :=
  let mentions := fun word : String => Text.occursIn word.toList type.toList
  let filtered := if (config.get "filter").isTruthy || (config.get "filters").isTruthy
    then ["🔍 filtered"] else []
  let lookup :=
    if mentions "vpc" || mentions "subnet" then ["🌐 network lookup"]
    else if mentions "ami" || mentions "image" then ["💿 image lookup"]
    else []
  ⟨"data_" ++ type ++ "_" ++ name,
    ["<b>" ++ name ++ "</b>", "📊 data." ++ type] ++ filtered ++ lookup, some .datasource⟩

/-- The node of a variable. -/
def variableNode (name : String) (info : Value) : Except NumberError Diagram.Node := do
  let type ← Detail.line info (.value "🔧 " "type" "")
  let default := if info.entries.hasKey "default" then ["⚙️ has default"] else []
  let description ← if (info.get "description").isTruthy
    then do pure ["ℹ️ " ++ truncate (← info.getText "description") descriptionLimit] else pure []
  return ⟨"var_" ++ name,
    ["<b>" ++ name ++ "</b>", "📝 variable"] ++ type ++ default ++ description,
    some .inputVariable⟩

/-- The node of a module. -/
def moduleNode (name : String) (config : Value) : Except NumberError Diagram.Node := do
  let source ← config.getText "source"
  let shown := if source = "" then [] else ["🔗 " ++ source]
  return ⟨"module_" ++ name, ["<b>" ++ name ++ "</b>", "📦 module"] ++ shown,
    some .childModule⟩

/-- The variables of a document with their details, which for a configuration text stand in the
text only. -/
def inputVariables (doc : Document) : Except NumberError (Entries Value) := do
  let declared := doc.root.getEntries "variable"
  -- The tree of a configuration text has the names only, so its text is read again.
  if doc.source = .hcl then
    let details ← Hcl.variableDetails doc.text.toList
    return declared.map fun (name, _) => (name, (details.get? name).getD (.map []))
  else return declared

/-! ## Edges -/

/-- The name of the node at an address with dots. -/
def addressId (address : String) : String :=
  String.ofList (address.toList.map fun c => if c = '.' then '_' else c)

/-- Edges from the parts that a block refers to, other than itself. -/
def referenceLinks (id : String) (config : Value) : List Diagram.Link :=
  ((references config.entries).filter (· != id)).map fun target =>
    { source := target, target := id, label := "referenced by", dotted := true }

/-- Edges from the parts that a resource depends on or refers to. -/
def resourceLinks (type name : String) (config : Value) : List Diagram.Link :=
  let id := resourceId type name
  (config.get "depends_on").textItems.map (fun address =>
      { source := addressId address, target := id, label := "depends on" }) ++
    referenceLinks id config

/-! ## The diagram -/

/-- The diagram of a configuration. -/
def draw (doc : Document) : Except NumberError Diagram := do
  let tree := doc.root
  let resources := instances (tree.getEntries "resource")
  let dataSources := instances (tree.getEntries "data")
  let modules := tree.getEntries "module"
  let variableNodes ← (← inputVariables doc).mapM fun (name, info) => variableNode name info
  let resourceNodes ← resources.mapM fun (type, name, config) => resourceNode type name config
  let moduleNodes ← modules.mapM fun (name, config) => moduleNode name config
  return (Diagram.empty .flowchart styles)
    |>.groupUnlessEmpty "Resources" "🏗️ Resources" resourceNodes
    |>.groupUnlessEmpty "DataSources" "📊 Data Sources"
        (dataSources.map fun (type, name, config) => dataNode type name config)
    |>.groupUnlessEmpty "Variables" "📝 Variables" variableNodes
    |>.groupUnlessEmpty "Modules" "📦 Modules" moduleNodes
    |>.links (resources.flatMap fun (type, name, config) => resourceLinks type name config)
    |>.links (modules.flatMap fun (name, config) => referenceLinks ("module_" ++ name) config)

end Schematic.Drawing.Terraform
