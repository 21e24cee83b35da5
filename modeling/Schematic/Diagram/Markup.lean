import Schematic.Diagram.Basic

/-!
# Markup of a diagram

The text of a diagram: a header, the groups and nodes, the edges, and the definitions of the
styles. A group keeps its identifier unless a node or an earlier group goes by it; then it takes
the first free one of a series.

## Main definitions

- `Diagram.freshId` — the first free identifier for a group
- `Diagram.groupIds` — the final identifiers of the groups
- `Diagram.lines`, `Diagram.markup` — the text
- `Diagram.render` — the text, unless a style is not defined
-/

namespace Schematic.Diagram

/-! ## Identifiers of groups -/

/-- The identifiers that a group can take, in order of preference. -/
def candidate (id : String) : Nat → String
  | 0 => id
  | 1 => id ++ "_group"
  | n + 2 => id ++ "_group" ++ toString (n + 2)

/-- The first candidate that is not taken. One of the first candidates must be free, as there are
more of them than taken identifiers. -/
def freshId (taken : List String) (id : String) : String :=
  let candidates := (List.range (taken.length + 1)).map (candidate id)
  (candidates.find? fun c => !taken.contains c).getD id

/-- Fresh identifiers one after the other. -/
def freshIds (taken : List String) : List String → List String
  | [] => []
  | id :: ids =>
    -- A group that was named takes its identifier from the groups to come.
    let fresh := freshId taken id
    fresh :: freshIds (fresh :: taken) ids

/-- The identifiers of the groups as they were asked for. -/
def wantedGroupIds (d : Diagram) : List String :=
  d.events.filterMap fun
    | .opened id _ => some id
    | _ => none

/-- The final identifiers of the groups, in order. -/
def groupIds (d : Diagram) : List String :=
  freshIds d.takenIds d.wantedGroupIds

/-! ## Lines -/

/-- Indentation of a depth. -/
def indent (depth : Nat) : String :=
  String.ofList (List.replicate (4 * depth) ' ')

/-- A text in quotes and square brackets behind an identifier. -/
def labelled (id label : String) : String :=
  id ++ "[\"" ++ label ++ "\"]"

/-- The lines of the body at a depth, with the final identifiers of the groups to come. The depth
never falls below the first. -/
def bodyLines (depth : Nat) (groups : List String) : List Event → List String
  | [] => []
  | .opened id title :: rest =>
    (indent depth ++ "subgraph " ++ labelled (groups.head?.getD id) title) ::
      bodyLines (depth + 1) groups.tail rest
  | .closed :: rest =>
    -- The word stands where the group began, not as deep as what is in it.
    let outer := max 1 (depth - 1)
    (indent outer ++ "end") :: bodyLines outer groups rest
  | .declared id label style :: rest =>
    (indent depth ++ labelled id label) ::
      (style.toList.map fun name => indent depth ++ "class " ++ id ++ " " ++ name) ++
      bodyLines depth groups rest

/-- The line of an edge. -/
def Edge.line (e : Edge) : String :=
  let arrow := if e.dotted then "-.->" else "-->"
  let label := match e.label with
    | some label => "|" ++ label ++ "|"
    | none => ""
  indent 1 ++ e.source ++ " " ++ arrow ++ label ++ " " ++ e.target

/-- The line that defines a style. -/
def styleLine (style : Style) : String :=
  indent 1 ++ "classDef " ++ style.name ++ " " ++ style.look

/-- The lines that define the styles, behind an empty line. -/
def styleLines (d : Diagram) : List String :=
  if d.styles.isEmpty then []
  else "" :: (d.styles.filterMap Style.named?).map styleLine

/-- The lines of a diagram. -/
def lines (d : Diagram) : List String :=
  (d.kind.name ++ " " ++ d.direction) :: bodyLines 1 d.groupIds d.events ++
    d.edges.map Edge.line ++ d.styleLines

/-- The text of a diagram; a style without a definition is left out. -/
def markup (d : Diagram) : String :=
  Text.join "\n" d.lines ++ "\n"

/-- A diagram asks for a style that there is not. -/
structure UndefinedStyle where
  name : String
deriving DecidableEq, Repr

/-- The text of a diagram whose styles are all defined. -/
def render (d : Diagram) : Except UndefinedStyle String :=
  match d.styles.find? fun name => (Style.named? name).isNone with
  | some name => .error ⟨name⟩
  | none => .ok d.markup

end Schematic.Diagram
