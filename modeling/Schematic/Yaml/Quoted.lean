import Schematic.Text.Digit
import Schematic.Text.Surrogate
import Schematic.Yaml.Fold

/-!
# Quoted scalars

Between single quotes only the quote itself is doubled; between double quotes a backslash starts
an escape. Lines are folded in both, and no line may be a document mark.

## Main definitions

- `Quoted.escape` — what a backslash and the characters after it stand for
- `Quoted.read` — a quoted scalar
-/

namespace Schematic.Yaml.Quoted

/-- The quotes that enclose a scalar. -/
inductive Style where
  | single
  | double
deriving DecidableEq, Repr

def Style.quote : Style → Char
  | single => '\''
  | double => '"'

/-- A character that stands for itself and ends nothing, whatever the quotes. -/
def isOrdinary (c : Char) : Bool :=
  !(isSpaceOrEnd c || c == '\'' || c == '"' || c == '\\')

/-- The character that a backslash and a single character stand for. -/
def escaped? : Char → Option Char
  | '0' => some '\x00'
  | 'a' => some '\x07'
  | 'b' => some '\x08'
  | 't' => some '\t'
  | '\t' => some '\t'
  | 'n' => some '\n'
  | 'v' => some '\x0B'
  | 'f' => some '\x0C'
  | 'r' => some '\r'
  | 'e' => some '\x1B'
  | ' ' => some ' '
  | '"' => some '"'
  | '/' => some '/'
  | '\\' => some '\\'
  | 'N' => some '\u0085'
  | '_' => some '\u00A0'
  | 'L' => some '\u2028'
  | 'P' => some '\u2029'
  | _ => none

/-- How many hexadecimal digits follow a letter. -/
def escapeLength? : Char → Option Nat
  | 'x' => some 2
  | 'u' => some 4
  | 'U' => some 8
  | _ => none

/-- The number of hexadecimal digits ahead; the first character that is none is an error. -/
def hexCode (start : Mark) (count : Nat) (c : Cursor) : Except ReadError Nat :=
  let digits := (List.range count).map c.peekAt
  match digits.find? fun d => (Text.hexDigitValue? d).isNone with
  | some d => .error (.during .doubleQuoted start (.escapeDigits count d) c.mark)
  | none => .ok ((Text.hexValue? digits).getD 0)

/-- The number of an escaped low surrogate ahead. -/
def lowSurrogate? (c : Cursor) : Option Nat :=
  match c.rest with
  | '\\' :: 'u' :: rest => (Text.hexValue? (rest.take 4)).filter Text.isLowSurrogate
  | _ => none

/-- The character of a code point whose escape ends at the cursor, and the cursor after it. A
surrogate pair takes the escape that follows. -/
def character (code : Nat) (c : Cursor) : Except ReadError (Char × Cursor) :=
  if 0x110000 ≤ code then .error (.fault (.character (Nat.pow 2 31 ≤ code)))
  else
    match if Text.isHighSurrogate code then lowSurrogate? c else none with
    | some low => .ok (Text.charOfPair code low, c.skip 6)
    | none => .ok (Text.charOfCode code, c)

/-- Line breaks in a row, with blanks between them. -/
def breaks (start : Mark) : Nat → Cursor → Except ReadError (List Char × Cursor)
  | 0, c => .ok ([], c)
  | fuel + 1, c =>
    if c.atDocumentMark then .error (.during .quoted start .separatorInScalar c.mark)
    else
      let c := c.skipWhile isBlank
      match c.lineBreak? with
      | none => .ok ([], c)
      | some (br, c) => do
        let (more, c) ← breaks start fuel c
        return (br :: more, c)

/-- What the characters after a backslash stand for. -/
def escape (start : Mark) (c : Cursor) : Except ReadError (List Char × Cursor) :=
  match escaped? c.peek, escapeLength? c.peek with
  | some d, _ => .ok ([d], c.next)
  | none, some count => do
    let code ← hexCode start count c.next
    let (d, c) ← character code (c.next.skip count)
    return ([d], c)
  | none, none =>
    match c.lineBreak? with
    -- An escaped line break is left out, and only empty lines after it are kept.
    | some (_, c) => breaks start c.bound c
    | none => .error (.during .doubleQuoted start (.unknownEscape c.peek) c.mark)

/-- Characters other than space, up to the closing quote. -/
def word (style : Style) (start : Mark) : Nat → Cursor → Except ReadError (List Char × Cursor)
  | 0, c => .ok ([], c)
  | fuel + 1, c => do
    let (run, c) := c.span isOrdinary
    -- Which characters stand inside of a word depends on the quotes; any other one ends it.
    let special : Option (Except ReadError (List Char × Cursor)) :=
      match style, c.rest with
      | .single, '\'' :: '\'' :: _ => some (.ok (['\''], c.skip 2))
      | .single, '"' :: _ => some (.ok (['"'], c.next))
      | .single, '\\' :: _ => some (.ok (['\\'], c.next))
      | .double, '\'' :: _ => some (.ok (['\''], c.next))
      | .double, '\\' :: _ => some (escape start c.next)
      | _, _ => none
    match special with
    | none => return (run, c)
    | some read =>
      let (piece, c) ← read
      let (more, c) ← word style start fuel c
      return (run ++ piece ++ more, c)

/-- Space between words: blanks stand for themselves, line breaks are folded and take the blanks
around them. -/
def gap (start : Mark) (c : Cursor) : Except ReadError (List Char × Cursor) :=
  let (blanks, c) := c.span isBlank
  match c.lineBreak? with
  | some (br, c) => do
    let (more, c) ← breaks start c.bound c
    return (folded br more, c)
  | none =>
    if c.rest.isEmpty then .error (.during .quoted start .endInScalar c.mark)
    else .ok (blanks, c)

/-- Words and the space between them, up to the closing quote and over it. -/
def words (style : Style) (start : Mark) : Nat → Cursor → Except ReadError (List Char × Cursor)
  | 0, c => .ok ([], c)
  | fuel + 1, c => do
    let (text, c) ← word style start c.bound c
    if c.peek == style.quote then return (text, c.next)
    let (space, c) ← gap start c
    let (more, c) ← words style start fuel c
    return (text ++ space ++ more, c)

/-- The text of a quoted scalar whose opening quote is ahead. -/
def read (style : Style) (c : Cursor) : Except ReadError (String × Cursor) := do
  let (text, after) ← words style c.mark c.bound c.next
  return (String.ofList text, after)

end Schematic.Yaml.Quoted
