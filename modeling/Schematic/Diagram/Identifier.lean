import Schematic.Text.Search

/-!
# Identifiers of diagram nodes

Any name becomes an identifier that the diagram language reads as a plain node: letters, digits,
underscores and hyphens behind a leading letter, without runs of underscores, and none of the
words that open a statement. Making an identifier of an identifier changes nothing, so an edge
finds its node from the same name again.

## Main definitions

- `Identifier.reserved` — the words that open a statement
- `Identifier.squeeze` — the name with everything else replaced by single underscores
- `identifier` — the identifier of a name
-/

namespace Schematic

namespace Identifier

/-- The words that cannot stand as a node. -/
def reserved : List String :=
  ["end", "subgraph", "graph", "flowchart", "class", "classdef", "style", "linkstyle", "click",
    "call", "href", "direction"]

/-- A character that an identifier may hold. -/
def isAllowed (c : Char) : Bool :=
  c.isAlphanum || c == '_' || c == '-'

/-- Keep one underscore of every run. -/
def collapse : List Char → List Char
  | [] => []
  | c :: rest => if c = '_' ∧ rest.head? = some '_' then collapse rest else c :: collapse rest

/-- Remove underscores at both ends. -/
def trimUnderscores (cs : List Char) : List Char :=
  ((cs.dropWhile (· == '_')).reverse.dropWhile (· == '_')).reverse

/-- The name with all other characters replaced, runs of underscores made one, and none at the
ends. -/
def squeeze (cs : List Char) : List Char :=
  trimUnderscores (collapse (cs.map fun c => if isAllowed c then c else '_'))

/-- Whether the characters spell a reserved word, in any case. -/
def isReserved (cs : List Char) : Bool :=
  reserved.contains (String.ofList (cs.map Char.toLower))

/-- The identifier of the characters of a name. -/
def ofChars (cs : List Char) : List Char :=
  let word := squeeze cs
  -- A digit or a hyphen may not come first; neither of the two ways can lead to a reserved word.
  if (word.head?.any Char.isAlpha) = false then 'n' :: word
  else if isReserved word then 'n' :: '_' :: word
  else word

end Identifier

/-- The identifier of a name. -/
def identifier (name : String) : String :=
  String.ofList (Identifier.ofChars name.toList)

end Schematic
