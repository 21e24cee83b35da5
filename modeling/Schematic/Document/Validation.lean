import Schematic.Document.Format
import Schematic.Value.Basic

/-!
# Checking a document

What is wrong with a tree for its format: fields that are missing, values of the wrong shape, and
gaps that only deserve a warning. A tree without errors can be drawn.

## Main definitions

- `Issue`, `Severity` — a finding
- `Validation` — all findings, and whether the tree is valid
- `validate` — the check of a tree for a format
-/

namespace Schematic

/-- How grave a finding is. -/
inductive Severity where
  | error
  | warning
deriving DecidableEq, Repr

def Severity.name : Severity → String
  | error => "error"
  | warning => "warning"

/-- A finding. Line and column are known for syntax errors only. -/
structure Issue where
  severity : Severity
  check : String
  message : String
  line : Option Nat := none
  column : Option Nat := none
  suggestion : Option String := none
deriving DecidableEq, Repr

/-- All findings on a tree. -/
structure Validation where
  valid : Bool
  issues : List Issue
deriving DecidableEq, Repr

def Validation.errors (v : Validation) : List Issue :=
  v.issues.filter (·.severity == .error)

def Validation.warnings (v : Validation) : List Issue :=
  v.issues.filter (·.severity == .warning)

namespace Validation

/-- The fields without which a tree of a format cannot be drawn. -/
def requiredFields : Format → List String
  | .compose => ["version", "services"]
  | .kubernetes => ["apiVersion", "kind"]
  | .cloudFormation => ["Resources"]
  | .resourceManager => ["$schema", "contentVersion", "resources"]
  | .terraform | .ibmCloud | .unknown => []

/-- An error for every required field that is missing. -/
def checkRequired (tree : Value) (format : Format) : List Issue :=
  (requiredFields format).filterMap fun field =>
    if tree.entries.hasKey field then none
    else some { severity := .error, check := "required_fields",
                message := "Missing required field: " ++ field }

/-- Every service is a mapping with an image or a build. -/
def checkCompose (tree : Value) : List Issue :=
  (tree.getEntries "services").filterMap fun (name, config) =>
    if !config.isMap then
      some { severity := .error, check := "docker_compose",
             message := "Invalid service configuration for: " ++ name }
    else if (config.get "image").isTruthy || (config.get "build").isTruthy then none
    else
      some { severity := .warning, check := "docker_compose",
             message := "Service '" ++ name ++
               "' must have either 'image' or 'build' specified" }

/-- A finding unless a condition holds. -/
def unlessHolds (condition : Bool) (issue : Issue) : List Issue :=
  if condition then [] else [issue]

/-- Version and kind are texts, and metadata has a name. -/
def checkKubernetes (tree : Value) : List Issue :=
  let metadata := tree.get "metadata"
  unlessHolds (tree.get "apiVersion").str?.isSome
      { severity := .error, check := "kubernetes", message := "apiVersion must be a string" } ++
    unlessHolds (tree.get "kind").str?.isSome
      { severity := .error, check := "kubernetes", message := "kind must be a string" } ++
    -- Metadata of another shape has no fields that could be missing.
    unlessHolds (!metadata.isMap || (metadata.get "name").isTruthy)
      { severity := .warning, check := "kubernetes", message := "metadata.name is required" }

/-- Every resource is a mapping with a type. -/
def checkCloudFormation (tree : Value) : List Issue :=
  (tree.getEntries "Resources").filterMap fun (name, config) =>
    if !config.isMap then
      some { severity := .error, check := "cloudformation",
             message := "Invalid resource configuration for: " ++ name }
    else if (config.get "Type").isTruthy then none
    else
      some { severity := .error, check := "cloudformation",
             message := "Resource '" ++ name ++ "' is missing Type property" }

/-- There is something to draw. -/
def checkTerraform (tree : Value) : List Issue :=
  let present := ["resource", "data", "module"].any fun key => !(tree.getEntries key).isEmpty
  unlessHolds present
    { severity := .warning, check := "terraform",
      message := "Terraform configuration should contain at least one resource, " ++
        "data source, or module" }

/-- Resources are a list of mappings with types. -/
def checkResourceManager (tree : Value) : List Issue :=
  match tree.get "resources" with
  | .null => []
  | .list resources =>
    resources.zipIdx.filterMap fun (resource, index) =>
      if (resource.get "type").isTruthy then none
      else some { severity := .warning, check := "azure_arm",
                  message := s!"Resource {index} is missing a 'type'" }
  | _ => [{ severity := .error, check := "azure_arm", message := "'resources' must be a list" }]

/-- Resources are a list. -/
def checkIbmCloud (tree : Value) : List Issue :=
  match tree.get "resources" with
  | .null | .list _ => []
  | _ =>
    [{ severity := .warning, check := "ibm_cloud",
       message := "'resources' should be a list of resource objects",
       suggestion := some
         "Use resources: [\x7bname: ..., type: ibm_..., properties: \x7b...\x7d\x7d]" }]

/-- The check of the shapes that a format asks for. -/
def checkShape (tree : Value) : Format → List Issue
  | .compose => checkCompose tree
  | .kubernetes => checkKubernetes tree
  | .terraform => checkTerraform tree
  | .cloudFormation => checkCloudFormation tree
  | .resourceManager => checkResourceManager tree
  | .ibmCloud => checkIbmCloud tree
  | .unknown => []

/-- Findings, which are valid if none is an error. -/
def ofIssues (issues : List Issue) : Validation :=
  ⟨!issues.any (·.severity == .error), issues⟩

end Validation

/-- The check of a tree for a format. -/
def validate (tree : Value) (format : Format) : Validation :=
  if !tree.isMap then
    .ofIssues [{ severity := .error, check := "structure", message := "Invalid data structure" }]
  else if format = .unknown then
    .ofIssues [{ severity := .error, check := "format",
                 message := "Unknown or unsupported format" }]
  else
    .ofIssues (Validation.checkRequired tree format ++ Validation.checkShape tree format)

end Schematic
