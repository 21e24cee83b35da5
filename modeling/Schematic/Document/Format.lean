/-!
# Formats and sources

The families of infrastructure descriptions that are told apart, and the notations that a
description can be written in.

## Main definitions

- `Format`, `Format.name`, `Format.named?` — the families and their labels
- `Source` — how a text was written
-/

namespace Schematic

/-- A family of infrastructure descriptions. -/
inductive Format where
  | compose
  | kubernetes
  | terraform
  | cloudFormation
  | resourceManager
  | ibmCloud
  | unknown
deriving DecidableEq, Repr

namespace Format

/-- Every format. -/
def all : List Format :=
  [compose, kubernetes, terraform, cloudFormation, resourceManager, ibmCloud, unknown]

/-- The label of a format. -/
def name : Format → String
  | compose => "docker-compose"
  | kubernetes => "kubernetes"
  | terraform => "terraform"
  | cloudFormation => "cloudformation"
  | resourceManager => "azure-arm"
  | ibmCloud => "ibm-cloud"
  | unknown => "unknown"

/-- The format with a label. -/
def named? (label : String) : Option Format :=
  all.find? fun format => format.name == label

/-- Every format is found by its label. -/
@[simp] theorem named?_name (format : Format) : named? format.name = some format := by
  cases format <;> decide

end Format

/-- How a text was written. -/
inductive Source where
  | json
  | yaml
  | hcl
deriving DecidableEq, Repr

namespace Source

def name : Source → String
  | json => "json"
  | yaml => "yaml"
  | hcl => "hcl"

/-- The notation with a name. -/
def named? (label : String) : Option Source :=
  [json, yaml, hcl].find? fun source => source.name == label

end Source

end Schematic
