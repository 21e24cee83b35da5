import Schematic.Yaml.Schema

/-!
# Nodes of a document

The tree that a text denotes before its scalars have values. Aliases stand for the nodes they name;
only an alias inside the node that it names is left as it is.

## Main definitions

- `Tag` — what kind of value a node has
- `Node` — the trees
-/

namespace Schematic.Yaml

/-- A tag, its handle replaced by what it stands for. -/
structure Tag where
  name : String
  /-- Whether it was written with a handle. -/
  hasHandle : Bool
deriving DecidableEq, Repr

namespace Tag

/-- What the names of the standard tags begin with. -/
def standardPrefix : String := "tag:yaml.org,2002:"

/-- A standard tag that was not written. -/
def standard (name : String) : Tag :=
  ⟨standardPrefix ++ name, false⟩

/-- The tag of a kind of plain scalars. -/
def ofKind : ScalarKind → Tag
  | .bool => standard "bool"
  | .float => standard "float"
  | .int => standard "int"
  | .merge => standard "merge"
  | .null => standard "null"
  | .timestamp => standard "timestamp"
  | .value => standard "value"
  | .text => standard "str"

end Tag

/-- A node of a document. -/
inductive Node where
  | scalar (tag : Tag) (text : String) (start : Mark) (isAnchored : Bool)
  | sequence (tag : Tag) (items : List Node) (start : Mark)
  | mapping (tag : Tag) (entries : List (Node × Node)) (start : Mark)
  /-- An alias inside the node that it names. It never ends if that node exists before its content
  does; otherwise there is nothing yet that it could stand for. -/
  | cycle (isEndless : Bool) (shape : Shape) (start : Mark)

namespace Node

def start : Node → Mark
  | scalar _ _ start _ => start
  | sequence _ _ start => start
  | mapping _ _ start => start
  | cycle _ _ start => start

def shape : Node → Shape
  | scalar _ _ _ _ => .scalar
  | sequence _ _ _ => .sequence
  | mapping _ _ _ => .mapping
  | cycle _ shape _ => shape

def tag? : Node → Option Tag
  | scalar tag _ _ _ => some tag
  | sequence tag _ _ => some tag
  | mapping tag _ _ => some tag
  | cycle _ _ _ => none

/-- Whether a node has the standard tag of a name. -/
def hasTag (node : Node) (name : String) : Bool :=
  (node.tag?.map Tag.name) == some (Tag.standardPrefix ++ name)

end Node

end Schematic.Yaml
