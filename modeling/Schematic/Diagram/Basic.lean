import Schematic.Diagram.Identifier
import Schematic.Diagram.Label
import Schematic.Diagram.Style

/-!
# Diagrams

A diagram is what has been drawn so far: the groups and nodes in the order of drawing, and the
edges, each once. Edges stand apart from the rest, so it does not matter when they are drawn.

## Main definitions

- `Diagram` — what has been drawn
- `Diagram.openGroup`, `Diagram.closeGroup`, `Diagram.node`, `Diagram.edge` — drawing
- `Diagram.nodeIds`, `Diagram.nodeCount`, `Diagram.edgeCount` — what a diagram holds
-/

namespace Schematic

namespace Diagram

/-- The two words that a diagram can start with. -/
inductive Kind where
  | flowchart
  | graph
deriving DecidableEq, Repr

def Kind.name : Kind → String
  | flowchart => "flowchart"
  | graph => "graph"

/-- The kind with a name. -/
def Kind.named? (name : String) : Option Kind :=
  [flowchart, graph].find? fun kind => kind.name == name

/-- One step of the body of a diagram. -/
inductive Event where
  /-- A group begins; its final identifier depends on all the nodes. -/
  | opened (id title : String)
  | closed
  | declared (id label : String) (style : Option String)
deriving DecidableEq, Repr

/-- A connection between two nodes. -/
structure Edge where
  source : String
  target : String
  label : Option String
  dotted : Bool
deriving DecidableEq, Repr

end Diagram

/-- What has been drawn. -/
structure Diagram where
  kind : Diagram.Kind
  /-- The class names whose styles are defined at the end. -/
  styles : List String
  direction : String := "TD"
  events : List Diagram.Event := []
  edges : List Diagram.Edge := []

namespace Diagram

/-! ## Drawing -/

/-- An empty diagram. -/
def empty (kind : Kind) (styles : List Style) : Diagram where
  kind := kind
  styles := styles.map Style.name

/-- Begin a group. -/
def openGroup (d : Diagram) (id title : String) : Diagram :=
  { d with events := d.events ++ [.opened (identifier id) (Schematic.label title)] }

/-- End a group. -/
def closeGroup (d : Diagram) : Diagram :=
  { d with events := d.events ++ [.closed] }

/-- Declare a node with a label of several lines; an empty class name counts as none. -/
def node (d : Diagram) (id : String) (label : List String) (style : Option String) : Diagram :=
  let style := style.filter (· != "")
  let label := Schematic.label (Text.join "\n" label)
  { d with events := d.events ++ [.declared (identifier id) label style] }

/-- Connect two nodes, unless the same edge is there already; an empty label counts as none. -/
def edge (d : Diagram) (source target : String) (label : Option String := none)
    (dotted : Bool := false) : Diagram :=
  let label := (label.filter (· != "")).map Schematic.label
  let edge : Edge := ⟨identifier source, identifier target, label, dotted⟩
  if edge ∈ d.edges then d else { d with edges := d.edges ++ [edge] }

/-! ## What a diagram holds -/

/-- The identifiers of the declared nodes, in order. -/
def nodeIds (d : Diagram) : List String :=
  d.events.filterMap fun
    | .declared id _ _ => some id
    | _ => none

def nodeCount (d : Diagram) : Nat :=
  d.nodeIds.length

def edgeCount (d : Diagram) : Nat :=
  d.edges.length

/-- The identifiers that nodes go by, declared or named by an edge only. -/
def takenIds (d : Diagram) : List String :=
  d.nodeIds ++ d.edges.flatMap fun edge => [edge.source, edge.target]

/-! ## Drawing many at once -/

/-- A node before it is drawn. -/
structure Node where
  id : String
  label : List String
  style : Option Style := none

/-- A connection before it is drawn. -/
structure Link where
  source : String
  target : String
  label : Option String := none
  dotted : Bool := false

/-- Declare nodes one after the other. -/
def nodes (d : Diagram) (ns : List Node) : Diagram :=
  ns.foldl (fun d n => d.node n.id n.label (n.style.map Style.name)) d

/-- Declare nodes inside a group. -/
def group (d : Diagram) (id title : String) (ns : List Node) : Diagram :=
  ((d.openGroup id title).nodes ns).closeGroup

/-- Declare nodes inside a group, which is left out if there are none. -/
def groupUnlessEmpty (d : Diagram) (id title : String) (ns : List Node) : Diagram :=
  if ns.isEmpty then d else d.group id title ns

/-- Draw connections one after the other. -/
def links (d : Diagram) (ls : List Link) : Diagram :=
  ls.foldl (fun d l => d.edge l.source l.target l.label l.dotted) d

end Diagram

end Schematic
