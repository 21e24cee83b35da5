import Schematic.Hcl.Attribute

/-!
# Configurations

A configuration text as a document tree: providers, resources with their attributes, data sources,
variables and modules, each section present if it holds anything.

## Main definitions

- `looksLikeHcl` — whether a text has the blocks of a configuration
- `variableDetails` — type, default and description of the variables
- `configuration` — the tree of a text
-/

namespace Schematic.Hcl

/-! ## Recognising a configuration -/

/-- Text that only a configuration is expected to hold. -/
def markers : List String :=
  ["terraform \x7b", "provider \"", "resource \"", "data \""]

/-- Whether something holds of the text from some position on. -/
def somewhere (p : List Char → Bool) : List Char → Bool
  | [] => p []
  | c :: rest => p (c :: rest) || somewhere p rest

/-- Whether a text starts with a keyword, blanks and a brace. -/
def startsBare (keyword : String) (cs : List Char) : Bool :=
  match keyword.toList.isPrefixOf? cs with
  | some rest => (Text.trimLeft rest).head? == some '{'
  | none => false

/-- What follows a quoted label at the front of a text. -/
def afterLabel? : List Char → Option (List Char)
  | '"' :: rest =>
    match rest.dropWhile fun c => c != '"' && c != '\n' with
    | '"' :: rest => some rest
    | _ => none
  | _ => none

/-- What follows at least one blank at the front of a text. -/
def afterBlanks? : List Char → Option (List Char)
  | c :: rest => if Text.isBlank c then some (Text.trimLeft rest) else none
  | [] => none

/-- Whether a text starts with a resource header of two labels. -/
def startsResource (cs : List Char) : Bool :=
  let left := do
    let rest ← "resource".toList.isPrefixOf? cs
    let rest ← afterLabel? (← afterBlanks? rest)
    afterLabel? (← afterBlanks? rest)
  match left with
  | some rest => (Text.trimLeft rest).head? == some '{'
  | none => false

/-- Whether a text has the blocks of a configuration. -/
def looksLikeHcl (cs : List Char) : Bool :=
  markers.any (fun marker => Text.occursIn marker.toList cs) ||
    somewhere (startsBare "terraform") cs || somewhere startsResource cs

/-! ## Variables -/

/-- One assignment of a variable block, added to the details so far. -/
def addDetail (info : Entries Value) (key raw : List Char) :
    Except NumberError (Entries Value) := do
  if key = "type".toList then return info.insert "type" (.str (String.ofList raw))
  else if key = "default".toList then
    -- A default that is not understood is shown as it is written.
    let value ← scalar raw
    return info.insert "default" (value.getD (.str (String.ofList raw)))
  else if key = "description".toList then
    -- An empty description stays in its quotes.
    let text := match unquote? raw with
      | some [] | none => raw
      | some text => text
    return info.insert "description" (.str (String.ofList text))
  else return info

/-- The details of one variable. -/
def details (body : List Char) : Except NumberError (Entries Value) :=
  (assignments body).foldlM (fun info (key, raw) => addDetail info key raw) []

/-- The details of all variables, by name. -/
def variableDetails (cs : List Char) : Except NumberError (Entries Value) :=
  (blocks "variable" cs).foldlM (fun found block => do
    match block.labels with
    | [] => return found
    | name :: _ => return found.insert name (.map (← details block.body))) []

/-! ## Sections -/

/-- A mapping that holds a name only. -/
def named (name : String) : Value :=
  .map [("name", .str name)]

/-- Entries for blocks with one label. -/
def byName (value : String → Block → Value) (bs : List Block) : Entries Value :=
  bs.foldl (fun found block =>
    match block.labels with
    | [] => found
    | name :: _ => found.insert name (value name block)) []

/-- Put a value under a type and, within it, under a name. -/
def insertTyped (found : Entries Value) (type name : String) (value : Value) : Entries Value :=
  -- A type that is there already keeps its place.
  let same := ((found.get? type).getD (.map [])).entries
  found.insert type (.map (same.insert name value))

/-- Entries for blocks with two labels, a type and a name. -/
def byType (value : String → Block → Except NumberError Value) (bs : List Block) :
    Except NumberError (Entries Value) :=
  bs.foldlM (fun found block =>
    match block.labels with
    | type :: name :: _ => do return insertTyped found type name (← value name block)
    | _ => return found) []

/-- The source that a module names last, without quotes. -/
def moduleSource (body : List Char) : List Char :=
  (assignments body).foldl (fun found (key, raw) =>
    if key = "source".toList then
      match unquote? raw with
      | some [] | none => raw
      | some text => text
    else found) []

def moduleEntry (name : String) (block : Block) : Value :=
  .map [("name", .str name), ("source", .str (String.ofList (moduleSource block.body)))]

/-- A section under its key, if it holds anything. -/
def filled (key : String) (entries : Entries Value) : List (String × Value) :=
  if entries.isEmpty then [] else [(key, .map entries)]

/-- The tree of a configuration text. -/
def configuration (cs : List Char) : Except NumberError (Entries Value) := do
  let providers := byName (fun name _ => named name) (blocks "provider" cs)
  let resources ← byType (fun _ block => return .map (← attributes block.body))
    (blocks "resource" cs)
  let data ← byType (fun name _ => return named name) (blocks "data" cs)
  let inputs := byName (fun name _ => named name) (blocks "variable" cs)
  let modules := byName moduleEntry (blocks "module" cs)
  return filled "provider" providers ++ filled "resource" resources ++
    filled "data" data ++ filled "variable" inputs ++ filled "module" modules

end Schematic.Hcl
