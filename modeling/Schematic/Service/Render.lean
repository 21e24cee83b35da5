import Schematic.Diagram.Markup
import Schematic.Document.Parse
import Schematic.Document.Validation
import Schematic.Drawing.Generate

/-!
# From text to diagram

A text is parsed, checked and drawn. Whatever goes wrong on the way is told in the answer. The text
is parsed two calls further down.

## Main definitions

- `Rendering` — the outcome for a text
- `render` — the diagram of a text
-/

namespace Schematic

/-- The outcome for a text: a diagram or an error, and what was found on the way. -/
structure Rendering where
  format : Format := .unknown
  outcome : Except String Diagram
  issues : List Issue := []

namespace Rendering

def success (r : Rendering) : Bool :=
  r.outcome.toOption.isSome

/-- The markup of the diagram, if there is one. -/
def markup? (r : Rendering) : Option String :=
  r.outcome.toOption.map Diagram.markup

/-- The kind of the diagram, if there is one. -/
def kind? (r : Rendering) : Option Diagram.Kind :=
  r.outcome.toOption.map Diagram.kind

/-- The error, if there is no diagram. -/
def error? (r : Rendering) : Option String :=
  match r.outcome with
  | .ok _ => none
  | .error e => some e

/-- What is said of a text of no known format. -/
def unsupported : String :=
  "Unsupported format: unable to detect a supported infrastructure format"

/-- A text of no known format. -/
def ofUnknown : Rendering :=
  { outcome := .error unsupported }

/-- The finding that a syntax error is. -/
def syntaxIssue (failure : SyntaxFailure) : Issue :=
  { severity := .error
    check := "syntax"
    message := failure.message
    line := failure.line?
    column := failure.column? }

/-- A text that cannot be parsed. -/
def ofFailure (failure : SyntaxFailure) : Rendering :=
  { outcome := .error s!"Unsupported or malformed input: {failure.message}"
    issues := [syntaxIssue failure] }

/-- A text without an answer. -/
def ofFault (fault : Fault) : Rendering :=
  { outcome := .error s!"Unexpected error: {fault.message}" }

/-- A document, checked and drawn. -/
def ofDocument (doc : Document) : Rendering :=
  let validation := validate doc.root doc.format
  if validation.valid then
    { format := doc.format
      outcome := (draw doc).mapError DrawError.message
      issues := validation.issues }
  else
    let messages := Text.join "; " (validation.errors.map Issue.message)
    { format := doc.format
      outcome := .error s!"Validation failed: {messages}"
      issues := validation.issues }

end Rendering

/-- The diagram of a text. -/
def render (stack : Stack) (text : String) : Rendering :=
  if Text.isAllBlank text.toList then Rendering.ofUnknown
  else
    match parse (stack.below 2) text with
    | .error (.failure failure) => Rendering.ofFailure failure
    | .error (.fault fault) => Rendering.ofFault fault
    | .ok doc => if doc.format = .unknown then Rendering.ofUnknown else Rendering.ofDocument doc

end Schematic
