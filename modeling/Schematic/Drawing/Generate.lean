import Schematic.Drawing.CloudFormation
import Schematic.Drawing.Compose
import Schematic.Drawing.IbmCloud
import Schematic.Drawing.Kubernetes
import Schematic.Drawing.ResourceManager
import Schematic.Drawing.Terraform

/-!
# Drawing a document

Every format that is known has its way of drawing. A label that would hold an integer beyond the
digit limit cannot be written, and then nothing is drawn.

## Main definitions

- `DrawError`, `DrawError.message` — why a document has no diagram
- `draw` — the diagram of a document
-/

namespace Schematic

/-- Why a document has no diagram. -/
inductive DrawError where
  | unsupported (format : Format)
  | number (error : NumberError)
deriving DecidableEq, Repr

def DrawError.message : DrawError → String
  | unsupported format => "Unsupported format: " ++ format.name
  | number error => "Failed to generate diagram: " ++ error.message

namespace Drawing

/-- The documents that the manifests of a document are. -/
def manifests (doc : Document) : List Value :=
  if doc.isMultiDocument then doc.documents else [doc.root]

/-- The way of drawing a document by its format, if there is one. -/
def drawn? (doc : Document) : Option (Except NumberError Diagram) :=
  match doc.format with
  | .compose => some (Compose.draw doc.root)
  | .kubernetes => some (Kubernetes.draw (manifests doc))
  | .terraform => some (Terraform.draw doc)
  | .cloudFormation => some (CloudFormation.draw doc.root)
  | .resourceManager => some (ResourceManager.draw doc.root)
  | .ibmCloud => some (IbmCloud.draw doc.root)
  | .unknown => none

end Drawing

/-- The diagram of a document. -/
def draw (doc : Document) : Except DrawError Diagram :=
  match Drawing.drawn? doc with
  | none => .error (.unsupported doc.format)
  | some (.error e) => .error (.number e)
  | some (.ok diagram) => .ok diagram

end Schematic
