import Schematic.Diagram.Basic
import Schematic.Drawing.Names
import Schematic.Text.Interpolation

/-!
# Drawing lists of cloud resources

Every resource with a name and a type is a node, and so is every data source. References in the
properties of a resource are edges from what they name.

## Main definitions

- `IbmCloud.typeRules`, `IbmCloud.typeIcons` — style and sign of a resource by its type
- `IbmCloud.referredName?` — the resource that a reference names
- `IbmCloud.draw` — the diagram of a tree
-/

namespace Schematic.Drawing.IbmCloud

/-- The style of a resource by its type. -/
def typeRules : StyleRules := [
  (["security_group"], .security),
  (["_lb"], .loadbalancer),
  (["vpc", "subnet", "floating_ip", "public_gateway"], .network),
  (["database"], .database),
  (["instance"], .compute),
  (["cos", "bucket"], .storage)]

/-- The styles that are defined in every such diagram. -/
def styles : List Style :=
  [.security, .loadbalancer, .network, .database, .compute, .storage, .datasource]

/-- The sign of a resource by a word in its type, the first that fits. -/
def typeIcons : List (String × String) := [
  ("vpc", "🏢"), ("subnet", "🌐"), ("instance", "🖥️"), ("security_group", "🛡️"),
  ("lb", "⚖️"), ("floating_ip", "🌍"), ("cos", "📦")]

/-- The sign of a resource by its type. -/
def icon (type : String) : String :=
  match typeIcons.find? fun (word, _) => Text.occursIn word.toList type.toList with
  | some (_, sign) => sign
  | none => "🌐"

/-- The properties that refer to one resource each. -/
def parentProperties : List String := ["vpc", "subnet", "lb", "group"]

/-! ## References -/

/-- The name in a reference of a type, a name and an attribute. -/
def nameInPath? (expression : List Char) : Option String :=
  match Text.cutAtChar? '.' expression with
  | some (type, rest) =>
    match Text.cutAtChar? '.' rest with
    | some (name, _) =>
      if type.isEmpty || name.isEmpty then none else some (String.ofList name)
    | none => none
  | none => none

/-- The resource that the first embedded reference of a text names. -/
def referredName? (text : String) : Option String :=
  (Text.interpolations text.toList).findSome? nameInPath?

/-- How the address of a virtual server begins. -/
def instanceMark : List Char := "ibm_is_instance.".toList

/-- The virtual server whose address stands first in a text. -/
def instanceName? : List Char → Option (List Char)
  | [] => none
  | c :: rest =>
    let here := (instanceMark.isPrefixOf? (c :: rest)).map (·.takeWhile (· != '.'))
    match here with
    | some (d :: name) => some (d :: name)
    -- A mark without a name behind it is passed over.
    | _ => instanceName? rest

/-- The resources that the properties of a resource refer to. -/
def referredNames (properties : Value) : List String :=
  let parents := parentProperties.filterMap fun key =>
    (properties.get key).str?.bind referredName?
  let target := (properties.get "target").str?.bind fun text =>
    (instanceName? text.toList).map String.ofList
  let groups := (properties.getListed "security_groups").filterMap fun group =>
    group.str?.bind referredName?
  parents ++ target.toList ++ groups

/-! ## The diagram -/

/-- Name and type of an entry that has both. -/
def identity? (entry : Value) : Except NumberError (Option (String × String)) := do
  let name ← entry.getText "name"
  let type ← entry.getText "type"
  return if name = "" ∨ type = "" then none else some (name, type)

/-- The node of a resource. -/
def resourceNode (name type : String) : Diagram.Node :=
  ⟨name, [icon type ++ " " ++ name, "<small>" ++ type ++ "</small>"], classify? typeRules type⟩

/-- The node of a data source. -/
def dataNode (name type : String) : Diagram.Node :=
  ⟨"data_" ++ name, ["📋 " ++ name, "<small>data." ++ type ++ "</small>"], some .datasource⟩

/-- The entries of a list that have a name and a type. -/
def identified (entries : List Value) :
    Except NumberError (List (String × String × Value)) := do
  let found ← entries.mapM fun entry => return (← identity? entry, entry)
  return found.filterMap fun (identity, entry) =>
    identity.map fun (name, type) => (name, type, entry)

/-- The diagram of a list of cloud resources. -/
def draw (tree : Value) : Except NumberError Diagram := do
  let resources ← identified (tree.getListed "resources")
  let dataSources ← identified (tree.getListed "data_sources")
  return (Diagram.empty .graph styles)
    |>.nodes (resources.map fun (name, type, _) => resourceNode name type)
    |>.nodes (dataSources.map fun (name, type, _) => dataNode name type)
    |>.links (resources.flatMap fun (name, _, entry) =>
        (referredNames (entry.get "properties")).map fun referred =>
          { source := referred, target := name })

end Schematic.Drawing.IbmCloud
