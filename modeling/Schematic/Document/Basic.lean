import Schematic.Document.Format
import Schematic.Value.Basic

/-!
# Documents

An infrastructure description after reading: its format, the tree that is checked and drawn, and,
if the text held several documents, all of them.

## Main definitions

- `Document`, `Document.root` — a description and its tree as a value
-/

namespace Schematic

/-- An infrastructure description. -/
structure Document where
  format : Format := .unknown
  tree : Entries Value := []
  source : Source := .yaml
  isMultiDocument : Bool := false
  /-- All documents of a text that holds several. -/
  documents : List Value := []
  text : String := ""

/-- The tree of a document. -/
def Document.root (doc : Document) : Value :=
  .map doc.tree

end Schematic
