import Schematic.Document.Format
import Schematic.Document.Stack
import Schematic.Json.Writer

/-!
# Telling formats apart

Each format has fields that the ones after it in the order of the tests lack. The last test has no
field to go by and looks for resource names anywhere in the tree, for which the tree has to be
written down.

## Main definitions

- `Format.ofFields?` — the format that the fields of a tree tell
- `Format.ofTree` — the format of a tree
-/

namespace Schematic.Format

/-- Part of the schema address of a resource manager template. -/
def templateMarker : String := "deploymentTemplate.json"

/-- How names of resources of the last format begin, in lower case. -/
def resourceMarkers : List String := ["ibm_", "ibmcloud_"]

/-- Whether a tree names the schema of a resource manager template. -/
def hasTemplateSchema (tree : Value) : Bool :=
  (tree.get "$schema").str?.any fun schema =>
    Text.occursIn templateMarker.toList schema.toList

/-- Whether a value under a key counts as present. -/
def has (tree : Value) (key : String) : Bool :=
  (tree.get key).isTruthy

/-- The format that the fields of a tree tell. Only JSON text can be a template. -/
def ofFields? (tree : Value) (isJson : Bool) : Option Format :=
  if isJson && hasTemplateSchema tree then some resourceManager
  else if has tree "AWSTemplateFormatVersion" || has tree "Resources" then some cloudFormation
  else if has tree "apiVersion" && has tree "kind" then some kubernetes
  else if has tree "version" && has tree "services" then some compose
  else if has tree "terraform" || has tree "provider" || has tree "resource" then some terraform
  else none

/-- Whether the written form of a tree has the name of a resource of the last format in it. -/
def namesResource (room : Room) (tree : Value) : Except Json.WriteError Bool := do
  let written := (← Json.write (room.written tree) tree).map Char.toLower
  return resourceMarkers.any fun marker => Text.occursIn marker.toList written

/-- The format of a tree. -/
def ofTree (room : Room) (tree : Value) (isJson : Bool) : Except Json.WriteError Format := do
  if !tree.isMap then return unknown
  match ofFields? tree isJson with
  | some format => return format
  | none => return if ← namesResource room tree then ibmCloud else unknown

end Schematic.Format
