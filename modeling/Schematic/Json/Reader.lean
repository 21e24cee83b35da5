import Schematic.Json.Error
import Schematic.Number.Reading
import Schematic.Text.Surrogate
import Schematic.Value.Basic

/-!
# Reading JSON

A reader of JSON text that keeps the order of keys and the kind of numbers. A key that occurs
again replaces the value and keeps the first place. Beyond the standard it reads `NaN`, `Infinity`
and `-Infinity`.

The reader walks over the characters with a stack of open lists and mappings. Every step leaves
less text, which bounds the walk. How many lists and mappings may be open is up to the caller: a
text that opens one more is refused, before anything that follows is looked at.

## Main definitions

- `read` — the value of a text
-/

namespace Schematic.Json

/-- A cause with the text that is left where it was found. -/
inductive Fault where
  | malformed (cause : Cause) (left : Nat)
  | tooDeep
  | number (error : NumberError)

/-- Blank space between the tokens of JSON. -/
def isSpace (c : Char) : Bool :=
  c == ' ' || c == '\t' || c == '\n' || c == '\r'

def skipSpace (cs : List Char) : List Char :=
  cs.dropWhile isSpace

/-! ## Strings -/

/-- The character that a backslash and a letter stand for. -/
def escaped? : Char → Option Char
  | '"' => some '"'
  | '\\' => some '\\'
  | '/' => some '/'
  | 'b' => some '\x08'
  | 'f' => some '\x0C'
  | 'n' => some '\n'
  | 'r' => some '\r'
  | 't' => some '\t'
  | _ => none

/-- Four hexadecimal digits, with at least one character after them. `left` is the text left at
the letter that announces them. -/
def hexDigits (left : Nat) (cs : List Char) : Except Fault Nat :=
  if cs.length ≤ 4 then .error (.malformed .invalidHexEscape left)
  else
    match Text.hexValue? (cs.take 4) with
    | some n => .ok n
    | none => .error (.malformed .invalidHexEscape left)

/-- The character of a hexadecimal escape behind its letter, and how many characters it takes. Two
escapes that form a surrogate pair are one character. -/
def hexEscape (cs : List Char) : Except Fault (Char × Nat) := do
  let high ← hexDigits (cs.length + 1) cs
  match cs.drop 4 with
  | '\\' :: 'u' :: more =>
    if Text.isHighSurrogate high && 4 < more.length then
      let low ← hexDigits (more.length + 1) more
      if Text.isLowSurrogate low then return (Text.charOfPair high low, 10)
    return (Text.charOfCode high, 4)
  | _ => return (Text.charOfCode high, 4)

/-- A string behind its opening quote: its characters, and the rest behind the closing quote.
`opened` is the text left at the opening quote. -/
def stringBody (opened : Nat) (done : List Char) (cs : List Char) :
    Except Fault (List Char × List Char) :=
  match cs with
  | [] => .error (.malformed .unterminatedString opened)
  | '"' :: rest => .ok (done.reverse, rest)
  -- A backslash at the end of the text is no escape: the string has no end.
  | ['\\'] => .error (.malformed .unterminatedString opened)
  | '\\' :: 'u' :: rest =>
    match hexEscape rest with
    | .ok (c, taken) => stringBody opened (c :: done) (rest.drop taken)
    | .error e => .error e
  | '\\' :: c :: rest =>
    match escaped? c with
    | some d => stringBody opened (d :: done) rest
    | none => .error (.malformed .invalidEscape cs.length)
  | c :: rest =>
    if c.toNat < 0x20 then .error (.malformed .controlCharacter cs.length)
    else stringBody opened (c :: done) rest
termination_by cs.length
decreasing_by all_goals simp <;> omega

/-! ## Numbers -/

/-- The digits at the front of a text and the rest. -/
def digits (cs : List Char) : List Char × List Char :=
  cs.span Char.isDigit

/-- A fraction at the front of a text: a point and at least one digit. -/
def fraction (cs : List Char) : List Char × List Char :=
  match cs with
  | '.' :: rest =>
    match digits rest with
    | ([], _) => ([], cs)
    | (ds, rest) => ('.' :: ds, rest)
  | cs => ([], cs)

/-- An exponent at the front of a text, with at least one digit. -/
def exponent (cs : List Char) : List Char × List Char :=
  match cs with
  | c :: rest =>
    if c = 'e' || c = 'E' then
      let (mark, rest) :=
        match rest with
        | '-' :: rest => ([c, '-'], rest)
        | '+' :: rest => ([c, '+'], rest)
        | rest => ([c], rest)
      match digits rest with
      | ([], _) => ([], cs)
      | (ds, rest) => (mark ++ ds, rest)
    else ([], cs)
  | [] => ([], [])

/-- A number at the front of a text. A zero is a whole part by itself. -/
def number? (cs : List Char) : Option (Except NumberError Value × List Char) :=
  let (sign, unsigned) :=
    match cs with
    | '-' :: rest => (['-'], rest)
    | cs => ([], cs)
  let (whole, rest) :=
    match unsigned with
    | '0' :: rest => (['0'], rest)
    | cs => digits cs
  if whole.isEmpty then none
  else
    let (part, rest) := fraction rest
    let (power, rest) := exponent rest
    let value :=
      -- Without a fraction and an exponent the number is an integer.
      if part.isEmpty && power.isEmpty then
        (readInt 10 (String.ofList (sign ++ whole))).map Value.int
      else
        (readDecimal (String.ofList (sign ++ whole ++ part ++ power))).map Value.float
    some (value, rest)

/-- The constants and the values that they name. -/
def constants : List (String × Value) :=
  [("null", .null), ("true", .bool true), ("false", .bool false), ("NaN", .float Binary64.nan),
    ("Infinity", .float (Binary64.infinity false)),
    ("-Infinity", .float (Binary64.infinity true))]

/-- A constant or a number at the front of a text. -/
def scalar? (cs : List Char) : Option (Except NumberError Value × List Char) :=
  -- Constants are looked for first, since one of them begins like a negative number.
  let constant := constants.findSome? fun (name, value) =>
    (name.toList.isPrefixOf? cs).map fun rest => (Except.ok value, rest)
  match constant with
  | some found => some found
  | none => number? cs

/-! ## Values -/

/-- A list or mapping that is still open, with what it holds so far, the last first. -/
inductive Frame where
  | list (items : List Value)
  | map (entries : List (String × Value)) (key : String)

/-- What a step of the reader leaves to do. -/
inductive Step where
  /-- A value is expected next. -/
  | value (stack : List Frame) (cs : List Char)
  /-- A key is expected next, in a mapping with the given entries. -/
  | key (stack : List Frame) (entries : List (String × Value)) (cs : List Char)
  /-- A value has been read. -/
  | close (stack : List Frame) (value : Value) (cs : List Char)

/-- The text that a step has in front of it. -/
def Step.left : Step → List Char
  | value _ cs => cs
  | key _ _ cs => cs
  | close _ _ cs => cs

/-- The mapping of entries that were read, the last first. -/
def mapOf (entries : List (String × Value)) : Value :=
  .map (Entries.ofList entries.reverse)

/-- A value at the front of a text, or the container that it opens; at most `limit` may be open. -/
def readValue (limit : Nat) (stack : List Frame) (cs : List Char) : Except Fault Step :=
  match cs with
  | '[' :: rest =>
    if limit ≤ stack.length then .error .tooDeep
    else
      match skipSpace rest with
      | ']' :: rest => .ok (.close stack (.list []) rest)
      | rest => .ok (.value (.list [] :: stack) rest)
  | '{' :: rest =>
    if limit ≤ stack.length then .error .tooDeep
    else
      match skipSpace rest with
      | '}' :: rest => .ok (.close stack (.map []) rest)
      | rest => .ok (.key stack [] rest)
  | '"' :: rest => do
    let (text, rest) ← stringBody cs.length [] rest
    return .close stack (.str (String.ofList text)) rest
  | cs =>
    match scalar? cs with
    | some (.ok value, rest) => .ok (.close stack value rest)
    | some (.error e, _) => .error (.number e)
    | none => .error (.malformed .valueExpected cs.length)

/-- A key with its colon at the front of a text. -/
def readKey (stack : List Frame) (entries : List (String × Value)) (cs : List Char) :
    Except Fault Step :=
  match cs with
  | '"' :: rest => do
    let (name, rest) ← stringBody cs.length [] rest
    match skipSpace rest with
    | ':' :: rest => return .value (.map entries (String.ofList name) :: stack) (skipSpace rest)
    | rest => throw (.malformed .colonExpected rest.length)
  | cs => .error (.malformed .keyExpected cs.length)

/-- What follows a value inside the innermost open container. -/
def readAfter (frame : Frame) (stack : List Frame) (value : Value) (cs : List Char) :
    Except Fault Step :=
  match frame, cs with
  | .list items, ',' :: rest => .ok (.value (.list (value :: items) :: stack) (skipSpace rest))
  | .list items, ']' :: rest => .ok (.close stack (.list (value :: items).reverse) rest)
  | .map entries key, ',' :: rest => .ok (.key stack ((key, value) :: entries) (skipSpace rest))
  | .map entries key, '}' :: rest => .ok (.close stack (mapOf ((key, value) :: entries)) rest)
  | _, cs => .error (.malformed .commaExpected cs.length)

/-- Walk until the outermost value is complete. Each step takes at least one character, so the
length of the text bounds their number. -/
def walk (limit : Nat) : Nat → Step → Except Fault (Value × List Char)
  | 0, step => .error (.malformed .valueExpected step.left.length)
  | fuel + 1, step =>
    match step with
    | .close [] value cs => .ok (value, cs)
    | .close (frame :: stack) value cs =>
      (readAfter frame stack value (skipSpace cs)).bind (walk limit fuel)
    | .value stack cs => (readValue limit stack cs).bind (walk limit fuel)
    | .key stack entries cs => (readKey stack entries cs).bind (walk limit fuel)

/-- The value of a text, up to its end. -/
def readAll (limit : Nat) (cs : List Char) : Except Fault Value := do
  if cs.head? = some '\uFEFF' then throw (.malformed .byteOrderMark cs.length)
  let (value, rest) ← walk limit (cs.length + 2) (.value [] (skipSpace cs))
  match skipSpace rest with
  | [] => return value
  | rest => throw (.malformed .extraData rest.length)

/-- The value of a JSON text in which at most `limit` lists and mappings are inside each other. -/
def read (limit : Nat) (text : String) : Except ReadError Value :=
  let cs := text.toList
  match readAll limit cs with
  | .ok value => .ok value
  | .error (.malformed cause left) =>
    .error (.malformed (SyntaxError.locate cs cause (cs.length - left)))
  | .error .tooDeep => .error .tooDeep
  | .error (.number e) => .error (.number e)

end Schematic.Json
