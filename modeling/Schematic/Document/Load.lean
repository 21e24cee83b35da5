import Schematic.Document.Format
import Schematic.Document.Stack
import Schematic.Json.Reader
import Schematic.Text.Blank
import Schematic.Yaml.Reader

/-!
# Loading a text

A text is read as JSON, and if that fails as YAML. If both fail the error is that of JSON for a
text that begins like JSON, and that of YAML otherwise. A text that is nested too deeply for the
room there is fails in the same way. Numbers and dates that do not exist are errors of another kind:
they are not about the text and have no place in it.

## Main definitions

- `SyntaxFailure` — what is wrong with a text
- `Fault` — why there is no answer to a text
- `LoadError` — every way in which loading fails
- `load` — the documents of a text
-/

namespace Schematic

/-- What is wrong with a text, and where; lines and columns count from one. -/
structure SyntaxFailure where
  message : String
  line? : Option Nat := none
  column? : Option Nat := none
  source? : Option Source := none
deriving DecidableEq, Repr

/-- Why a text is not even answered with what is wrong with it. -/
inductive Fault where
  /-- A value that does not exist. -/
  | value (fault : Yaml.Fault)
  /-- A tree that has to be written down and cannot be. -/
  | unwritable (error : Json.WriteError)
deriving DecidableEq, Repr

def Fault.message : Fault → String
  | value e => e.message
  | unwritable e => e.message

/-- Why a text cannot be loaded. -/
inductive LoadError where
  | failure (failure : SyntaxFailure)
  | fault (fault : Fault)
deriving DecidableEq, Repr

namespace Load

/-- What is said of a text that is nested too deeply. -/
def nestingMessage : String := "Document is nested too deeply to parse"

/-- A text that is nested too deeply. -/
def tooDeep (source : Source) : LoadError :=
  .failure { message := nestingMessage, source? := some source }

/-- The failure of a text that is no JSON. -/
def jsonFailure (e : Json.SyntaxError) : SyntaxFailure :=
  { message := e.message, line? := some e.line, column? := some e.column, source? := some .json }

/-- The failure of a text that is no YAML, with the place of the cause. -/
def yamlFailure (text : List Char) (e : Yaml.SyntaxError) : SyntaxFailure :=
  { message := e.message text
    line? := e.place?.map fun place => place.line + 1
    column? := e.place?.map fun place => place.column + 1
    source? := some .yaml }

/-- The failure of a text with a character that no YAML text has. -/
def unacceptable (c : Char) (position : Nat) : SyntaxFailure :=
  let width := max 4 (Nat.toDigits 16 c.toNat).length
  { message :=
      s!"unacceptable character #x{String.ofList (Text.hex width c.toNat)}: special characters " ++
        s!"are not allowed\n  in \"<unicode string>\", position {position}"
    source? := some .yaml }

/-- Whether a text begins like a list or mapping of JSON. -/
def looksLikeJson (text : List Char) : Bool :=
  match Text.trimLeft text with
  | '{' :: _ => true
  | '[' :: _ => true
  | _ => false

/-- The documents of a text that is no JSON. -/
def loadYaml (limit : Nat) (text : List Char) (jsonError : Json.SyntaxError) :
    Except LoadError (List Value) :=
  -- A text that begins like JSON was meant to be JSON, so that error says more.
  let refuse (failure : SyntaxFailure) : Except LoadError (List Value) :=
    .error (.failure (if looksLikeJson text then jsonFailure jsonError else failure))
  match Yaml.read limit text with
  | .ok documents => .ok documents
  | .error .tooDeep => .error (tooDeep .yaml)
  | .error (.fault e) => .error (.fault (.value e))
  | .error (.malformed e) => refuse (yamlFailure text e)
  | .error (.unacceptable c position) => refuse (unacceptable c position)

end Load

/-- The documents of a text, and how it was written. -/
def load (room : Room) (text : String) : Except LoadError (List Value × Source) :=
  match Json.read (room.json text) text with
  | .ok value => .ok ([value], .json)
  | .error .tooDeep => .error (Load.tooDeep .json)
  | .error (.number e) => .error (.fault (.value (.number e)))
  | .error (.malformed e) =>
    (Load.loadYaml (room.yaml text) text.toList e).map fun documents => (documents, .yaml)

end Schematic
