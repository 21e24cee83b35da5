import Schematic.Document.Basic
import Schematic.Document.Classify
import Schematic.Document.Load
import Schematic.Hcl.Configuration

/-!
# Parsing a text

A text in the block notation is told by its keywords and cut into blocks; any other text is JSON or
YAML. The first document of a text is the one that is drawn. Texts are loaded one call further down,
and trees are classified two calls further down, or one by detection.

## Main definitions

- `parse` — the document of a text
- `detect` — the format of a text
-/

namespace Schematic

namespace Parse

/-- A text that holds nothing but blanks. -/
def emptyInput : SyntaxFailure :=
  { message := "Empty input" }

/-- An error of a number. -/
def ofNumber {α : Type} (result : Except NumberError α) : Except LoadError α :=
  result.mapError fun e => .fault (.value (.number e))

/-- An error of a tree that is written down. -/
def ofWriting {α : Type} (result : Except Json.WriteError α) : Except LoadError α :=
  result.mapError fun e => .fault (.unwritable e)

/-- Whether a text begins like a mapping of JSON. -/
def startsMapping (text : List Char) : Bool :=
  (Text.trimLeft text).head? == some '{'

/-- Whether a text is cut into blocks. -/
def isBlocks (text : List Char) : Bool :=
  Hcl.looksLikeHcl text && !startsMapping text

/-- The document of a text in the block notation. -/
def ofBlocks (text : String) : Except LoadError Document := do
  let tree ← ofNumber (Hcl.configuration text.toList)
  return { format := .terraform, tree := tree, source := .hcl, text := text }

/-- The document that loaded values form: the first is drawn, if it is a mapping. -/
def ofValues (room : Room) (text : String) (values : List Value) (source : Source) :
    Except LoadError Document :=
  match values with
  | .map tree :: rest => do
    let format ← ofWriting (Format.ofTree room (.map tree) (source == .json))
    -- A document on its own is not listed a second time.
    let isMulti := !rest.isEmpty
    return {
      format := format
      tree := tree
      source := source
      isMultiDocument := isMulti
      documents := if isMulti then values else []
      text := text }
  | _ => return { source := source, text := text }

end Parse

/-- The document of a text. -/
def parse (stack : Stack) (text : String) : Except LoadError Document :=
  if Text.isAllBlank text.toList then .error (.failure Parse.emptyInput)
  else if Parse.isBlocks text.toList then Parse.ofBlocks text
  else do
    let (values, source) ← load (stack.room 1) text
    Parse.ofValues (stack.room 2) text values source

/-- The format of a text; unknown if anything is wrong with it. -/
def detect (stack : Stack) (text : String) : Format :=
  if Text.isAllBlank text.toList then .unknown
  else if Hcl.looksLikeHcl text.toList then .terraform
  else
    match load (stack.room 1) text with
    | .ok (first :: _, source) =>
      (Format.ofTree (stack.room 1) first (source == .json)).toOption.getD .unknown
    | _ => .unknown

end Schematic
