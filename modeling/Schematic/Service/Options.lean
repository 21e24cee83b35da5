import Schematic.Document.Stack
import Schematic.Json.Reader
import Schematic.Value.Text

/-!
# Options of the service

The options are whatever JSON value the operator gave. The only one that matters is the size that
a text may have; it is looked at when a text arrives, so unusable options show only then.

## Main definitions

- `OptionsError` — why options cannot be loaded or used
- `Options.sizeLimit` — the size that a text may have
- `Options.checkSize` — whether a text is small enough
- `Options.load` — the options that a service starts with
-/

namespace Schematic

/-- Why options cannot be loaded or used. -/
inductive OptionsError where
  | unset
  /-- The options are no mapping but of this kind. -/
  | notAMapping (kind : String)
  /-- The limit is no number but of this kind. -/
  | notANumber (kind : String)
  | notFinite (isNaN : Bool)
  | number (error : NumberError)
  | json (error : Json.ReadError)
  /-- The text is larger than the limit. -/
  | tooLarge (size : Nat) (limit : String)
deriving DecidableEq, Repr

namespace Options

/-- The size in bytes that a text may have if the options do not say. -/
def standardLimit : Int := 5 * 1024 * 1024

/-- The key of the size that a text may have. -/
def limitKey : String := "max_input_bytes"

/-- What a value is called in an error. -/
def kindName : Value → String
  | .null => "NoneType"
  | .bool _ => "bool"
  | .int _ => "int"
  | .float _ => "float"
  | .str _ => "str"
  | .list _ => "list"
  | .map _ => "dict"
  | .bytes _ => "bytes"
  | .set _ => "set"
  | .pair _ _ => "tuple"

/-- The integer that a limit stands for: text is read, fractions are cut off. -/
def asInteger : Value → Except OptionsError Int
  | .int n => .ok n
  | .bool b => .ok (if b then 1 else 0)
  | .float x =>
    match x.truncate? with
    | some n => .ok n
    | none => .error (.notFinite x.isNaN)
  | .str s => (readInt 10 s).mapError .number
  | v => .error (.notANumber (kindName v))

/-- The size in bytes that a text may have. -/
def sizeLimit : Value → Except OptionsError Int
  | .map options =>
    match Entries.get? limitKey options with
    | some limit => asInteger limit
    | none => .ok standardLimit
  | v => .error (.notAMapping (kindName v))

/-- Refuse a text that is larger than the options allow. -/
def checkSize (text : String) (options : Value) : Except OptionsError Unit := do
  let limit ← sizeLimit options
  if text.utf8ByteSize ≤ limit then return
  let shown ← (writeInt limit).mapError .number
  throw (.tooLarge text.utf8ByteSize shown)

/-- Line feeds for all line ends of a file. -/
def unifyLineEnds : List Char → List Char
  | [] => []
  | '\r' :: '\n' :: rest => '\n' :: unifyLineEnds rest
  | '\r' :: rest => '\n' :: unifyLineEnds rest
  | c :: rest => c :: unifyLineEnds rest

/-- The options that a service starts with: the ones of a file if there is one, or else a mapping
with the limit alone. -/
def load (room : Room) (file limit : Option String) : Except OptionsError Value :=
  match file with
  | some text =>
    let unified := String.ofList (unifyLineEnds text.toList)
    (Json.read (room.json unified) unified).mapError .json
  | none => do
    let bytes ← match limit with
      | some text => (readInt 10 text).mapError .number
      | none => pure standardLimit
    return .map [(limitKey, .int bytes)]

end Options

def OptionsError.message : OptionsError → String
  | unset => "Options not initialised"
  | notAMapping kind => "'" ++ kind ++ "' object has no attribute 'get'"
  | notANumber kind =>
    "int() argument must be a string, a bytes-like object or a real number, not '" ++ kind ++ "'"
  | notFinite isNaN =>
    "cannot convert float " ++ (if isNaN then "NaN" else "infinity") ++ " to integer"
  | number e => e.message
  | json (.malformed e) => e.message
  | json .tooDeep => ""
  | json (.number e) => e.message
  | tooLarge size limit => s!"Input is {size} bytes; the limit is {limit} bytes"

end Schematic
