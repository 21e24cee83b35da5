import Schematic.Service.Example
import Schematic.Service.Options
import Schematic.Service.Render

/-!
# The service

A service loads its options when it starts, forgets them when it stops, and in between answers
requests about texts that are not too large. Starts may be nested; every stop ends one of them.
Options are loaded and texts are answered one call further down.

## Main definitions

- `Service` — the state between requests
- `Request`, `Reply`, `RequestError` — what is asked and answered
- `Service.handle`, `Service.run` — the answer to a request, and to requests in a row
-/

namespace Schematic

/-- The state of a service. -/
structure Service where
  options? : Option Value := none
  /-- How many starts have not been ended. -/
  starts : Nat := 0

/-- What is asked of a service. -/
inductive Request where
  /-- Start with the text of a file of options and a limit, if there are any. -/
  | start (file? limit? : Option String)
  | stop
  | options
  | detect (content : String)
  | parse (content : String)
  | generate (content : String)
  | examples
  | example (format : String)
deriving DecidableEq, Repr

/-- The document of a text, or what is wrong with it, and what was found in it. -/
structure ParseReply where
  outcome : Except SyntaxFailure Document
  issues : List Issue

/-- What a service answers. -/
inductive Reply where
  | options (options : Value)
  | stopped
  | format (format : Format)
  | document (reply : ParseReply)
  | rendering (rendering : Rendering)
  | examples (examples : List Example)
  | example (e : Example)

/-- Why a service does not answer. -/
inductive RequestError where
  | options (error : OptionsError)
  | notStarted
  | unknownFormat (label : String)
  | noExample (label : String)
  /-- There is no answer to the text. -/
  | fault (fault : Fault)
deriving DecidableEq, Repr

def RequestError.message : RequestError → String
  | options e => e.message
  | notStarted => "not started"
  | unknownFormat label => s!"Unknown format: {label}"
  | noExample label => s!"No example for format: {label}"
  | fault e => e.message

namespace ParseReply

/-- The reply for a document: its findings, if its format is known. -/
def ofDocument (doc : Document) : ParseReply :=
  { outcome := .ok doc
    issues := if doc.format = .unknown then [] else (validate doc.root doc.format).issues }

/-- The reply for a text that cannot be parsed. -/
def ofFailure (failure : SyntaxFailure) : ParseReply :=
  { outcome := .error failure, issues := [Rendering.syntaxIssue failure] }

/-- The reply for a text. -/
def ofText (stack : Stack) (content : String) : Except RequestError ParseReply :=
  match Schematic.parse (stack.below 1) content with
  | .ok doc => .ok (ofDocument doc)
  | .error (.failure failure) => .ok (ofFailure failure)
  | .error (.fault fault) => .error (.fault fault)

end ParseReply

namespace Service

/-- Options that are null count as none. -/
def ofOptions : Value → Option Value
  | .null => none
  | v => some v

/-- The options of a service. -/
def options (s : Service) : Except RequestError Value :=
  match s.options? with
  | some options => .ok options
  | none => .error (.options .unset)

/-- Refuse a text that is larger than the options allow. -/
def checkContent (s : Service) (content : String) : Except RequestError Unit := do
  let options ← s.options
  (Options.checkSize content options).mapError .options

/-- Start a service. If the options cannot be loaded it stays as it is. -/
def start (stack : Stack) (s : Service) (file? limit? : Option String) :
    Service × Except RequestError Reply :=
  match Options.load (stack.room 1) file? limit? with
  | .error e => (s, .error (.options e))
  | .ok loaded =>
    let started : Service := ⟨ofOptions loaded, s.starts + 1⟩
    (started, started.options.map .options)

/-- End the last start of a service. -/
def stop (s : Service) : Service × Except RequestError Reply :=
  match s.starts with
  | 0 => (s, .error .notStarted)
  | n + 1 => (⟨none, n⟩, .ok .stopped)

/-- The example of a format by its label. -/
def findExample (label : String) : Except RequestError Reply :=
  match Format.named? label with
  | none => .error (.unknownFormat label)
  | some format =>
    match exampleFor? format with
    | some e => .ok (.example e)
    | none => .error (.noExample label)

/-- The answer to a request that changes nothing. -/
def reply (stack : Stack) (s : Service) : Request → Except RequestError Reply
  | .detect content => do
    s.checkContent content
    return .format (Schematic.detect (stack.below 1) content)
  | .parse content => do
    s.checkContent content
    return .document (← ParseReply.ofText stack content)
  | .generate content => do
    s.checkContent content
    return .rendering (render (stack.below 1) content)
  | .examples => .ok (.examples Schematic.examples)
  | .example label => findExample label
  | .start _ _ | .stop | .options => s.options.map .options

/-- The answer to a request, and the service after it. -/
def handle (stack : Stack) (s : Service) : Request → Service × Except RequestError Reply
  | .start file? limit? => s.start stack file? limit?
  | .stop => s.stop
  | request => (s, s.reply stack request)

/-- The answers to requests one after the other. -/
def run (stack : Stack) (s : Service) : List Request → List (Except RequestError Reply)
  | [] => []
  | request :: rest =>
    let (next, answer) := s.handle stack request
    answer :: run stack next rest

end Service

end Schematic
