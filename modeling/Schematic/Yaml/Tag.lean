import Schematic.Text.Digit
import Schematic.Yaml.Cursor
import Schematic.Yaml.Error
import Schematic.Yaml.Token

/-!
# Tags and directives

A tag is a handle and an address, or an address between angle brackets. Directives name the
version of the language and what handles stand for.

## Main definitions

- `WrittenTag.handle`, `WrittenTag.address` — the parts of a tag
- `WrittenTag.read` — a tag
- `Directive.read` — a directive
-/

namespace Schematic.Yaml

/-- A letter or a digit of ASCII. -/
def isAlphanumeric (c : Char) : Bool :=
  c.isAlpha || c.isDigit

/-- A blank, a line break or the end of the text. -/
def isBlankOrEnd (c : Char) : Bool :=
  c == ' ' || isBreakOrEnd c

namespace WrittenTag

/-- A character of an address, apart from escapes. -/
def isAddressChar (version : Nat) (c : Char) : Bool :=
  isAlphanumeric c || "-;/?:@&=+$,_.!~*'()[]".toList.contains c || 1 < version && c == '#'

/-- Escaped bytes ahead, as they are written and as numbers. -/
def escapes (use : TagUse) (start : Mark) :
    Nat → Cursor → Except ReadError (List Char × List Nat × Cursor)
  | 0, c => .ok ([], [], c)
  | fuel + 1, c =>
    if c.peek == '%' then
      let c := c.next
      let digits := [c.peek, c.peekAt 1]
      match digits.find? fun d => (Text.hexDigitValue? d).isNone with
      | some d => .error (.during (.tagHandle use) start (.addressEscape d) c.mark)
      | none => do
        let (more, bytes, c) ← escapes use start fuel (c.skip 2)
        return ('%' :: digits ++ more, (Text.hexValue? digits).getD 0 :: bytes, c)
    else .ok ([], [], c)

/-- The characters of an address. Escaped bytes in a row must be UTF-8. -/
def addressChars (use : TagUse) (version : Nat) (start : Mark) :
    Nat → Cursor → Except ReadError (List Char × Cursor)
  | 0, c => .ok ([], c)
  | fuel + 1, c => do
    let (run, c) := c.span (isAddressChar version)
    if c.peek != '%' then return (run, c)
    let (escaped, bytes, after) ← escapes use start c.bound c
    if let some flaw := Text.Utf8.flaw? bytes then
      throw (.during (.tagHandle use) start (.addressBytes flaw) c.mark)
    let (more, c) ← addressChars use version start fuel after
    return (run ++ escaped ++ more, c)

/-- The address of a tag or directive that begins at `start`. -/
def address (use : TagUse) (version : Nat) (start : Mark) (c : Cursor) :
    Except ReadError (String × Cursor) := do
  let (cs, after) ← addressChars use version start c.bound c
  if cs.isEmpty then throw (.during (.tagAddress use) start (.addressExpected c.peek) c.mark)
  return (String.ofList cs, after)

/-- A handle: a word between exclamation marks, or a lone exclamation mark before a blank. -/
def handle (use : TagUse) (start : Mark) (c : Cursor) : Except ReadError (String × Cursor) :=
  if c.peek != '!' then
    .error (.during (.tagHandle use) start (.expected '!' c.peek) c.mark)
  else if c.peekAt 1 == ' ' then .ok ("!", c.next)
  else
    let (word, after) := c.next.span fun ch => isAlphanumeric ch || ch == '-' || ch == '_'
    if after.peek == '!' then .ok (String.ofList ('!' :: word ++ ['!']), after.next)
    else .error (.during (.tagHandle use) start (.expected '!' after.peek) after.mark)

/-- A tag with a handle; `short` is the handle if no word stands between exclamation marks. -/
def withHandle (version : Nat) (start : Mark) (short : String) (c : Cursor) :
    Except ReadError (WrittenTag × Cursor) := do
  let isNamed := (c.next.rest.takeWhile fun ch => !isBlankOrEnd ch).contains '!'
  let (name, c) ← if isNamed then handle .tag start c else pure (short, c.next)
  let (suffix, c) ← address .tag version start c
  return (⟨some name, suffix⟩, c)

/-- A tag whose first exclamation mark is ahead. -/
def read (version : Nat) (c : Cursor) : Except ReadError (WrittenTag × Cursor) := do
  let start := c.mark
  let (short, c) := if c.peekAt 1 == '!' then ("!!", c.next) else ("!", c)
  let (tag, c) ←
    if c.peekAt 1 == '<' then do
      let (suffix, c) ← address .tag version start (c.skip 2)
      if c.peek != '>' then throw (.during .closedTag start (.expected '>' c.peek) c.mark)
      pure (⟨none, suffix⟩, c.next)
    else if isSpaceOrEnd (c.peekAt 1) then pure (⟨none, short⟩, c.next)
    else withHandle version start short c
  if isBlankOrEnd c.peek then return (tag, c)
  throw (.during .tag start (.expected ' ' c.peek) c.mark)

end WrittenTag

namespace Directive

/-- The name of a directive. -/
def readWord (start : Mark) (c : Cursor) : Except ReadError (String × Cursor) :=
  let (cs, after) := c.span fun ch => isAlphanumeric ch || "-_:.".toList.contains ch
  if cs.isEmpty || !isBlankOrEnd after.peek then
    .error (.during .directive start (.nameExpected after.peek) after.mark)
  else .ok (String.ofList cs, after)

/-- A number of a version. -/
def readNumber (start : Mark) (c : Cursor) : Except ReadError (Nat × Cursor) := do
  let (ds, after) := c.span Char.isDigit
  if ds.isEmpty then throw (.during .directive start (.digitExpected c.peek) c.mark)
  if digitLimit < ds.length then throw (.fault (.number (.tooManyDigits ds.length)))
  return (ds.foldl (fun n d => n * 10 + (d.toNat - '0'.toNat)) 0, after)

/-- The value of a version directive. -/
def readVersion (start : Mark) (c : Cursor) : Except ReadError (Directive × Cursor) := do
  let (major, c) ← readNumber start (c.skipWhile (· == ' '))
  if c.peek != '.' then
    throw (.during .directive start (.digitOrExpected '.' c.peek) c.mark)
  let (minor, c) ← readNumber start c.next
  if isBlankOrEnd c.peek then return (.version major minor, c)
  throw (.during .directive start (.digitOrExpected ' ' c.peek) c.mark)

/-- The value of a handle directive. -/
def readHandle (current : Nat) (start : Mark) (c : Cursor) :
    Except ReadError (Directive × Cursor) := do
  let (name, c) ← WrittenTag.handle .directive start (c.skipWhile (· == ' '))
  if c.peek != ' ' then throw (.during .directive start (.expected ' ' c.peek) c.mark)
  let (prefixText, c) ← WrittenTag.address .directive current start (c.skipWhile (· == ' '))
  if isBlankOrEnd c.peek then return (.handle name prefixText, c)
  throw (.during .directive start (.expected ' ' c.peek) c.mark)

/-- The rest of the line of a directive: blanks, perhaps a comment, and the line break. -/
def readLineEnd (start : Mark) (c : Cursor) : Except ReadError Cursor :=
  let c := c.skipWhile (· == ' ')
  let c := if c.peek == '#' then c.skipWhile fun ch => !isBreakOrEnd ch else c
  if isBreakOrEnd c.peek then .ok c.skipLineBreak
  else .error (.during .directive start (.lineEndExpected c.peek) c.mark)

/-- A directive whose sign is ahead: its value, where it ends, and the cursor after its line.
`current` is the minor version that holds before it. -/
def read (current : Nat) (c : Cursor) : Except ReadError (Directive × Mark × Cursor) := do
  let start := c.mark
  let (word, c) ← readWord start c.next
  let (directive, stop, c) ←
    match word with
    | "YAML" => do
      let (directive, c) ← readVersion start c
      pure (directive, c.mark, c)
    | "TAG" => do
      let (directive, c) ← readHandle current start c
      pure (directive, c.mark, c)
    | _ => pure (.other, c.mark, c.skipWhile fun ch => !isBreakOrEnd ch)
  return (directive, stop, ← readLineEnd start c)

end Directive

end Schematic.Yaml
