import Schematic.Yaml.Cursor
import Schematic.Yaml.Error
import Schematic.Yaml.Fold

/-!
# Block scalars

A block scalar begins with an indicator: a bar keeps its lines, an angle folds them. After the
indicator stand a digit that tells how far its lines are indented and a sign that tells what
becomes of the line breaks at its end. All lines that are indented as far belong to the scalar.

## Main definitions

- `Block.Header`, `Block.header` — what stands after the indicator
- `Block.lines` — the lines and what follows them
- `Block.read` — a block scalar
-/

namespace Schematic.Yaml.Block

/-! ## The header -/

/-- What becomes of the line breaks at the end. -/
inductive Chomping where
  /-- The last line ends with a line break, empty lines after it are dropped. -/
  | clip
  /-- All line breaks are kept. -/
  | keep
  /-- All line breaks are dropped. -/
  | strip
deriving DecidableEq, Repr

/-- What stands after the indicator. -/
structure Header where
  chomping : Chomping := .clip
  /-- How much further than their surroundings the lines are indented. -/
  increment? : Option Nat := none

/-- A sign ahead, and the cursor after it. -/
def chomping? (c : Cursor) : Option (Chomping × Cursor) :=
  match c.peek with
  | '+' => some (.keep, c.next)
  | '-' => some (.strip, c.next)
  | _ => none

/-- A digit ahead, and the cursor after it. Zero is refused. -/
def increment (start : Mark) (c : Cursor) : Except ReadError (Option Nat × Cursor) :=
  if c.peek == '0' then .error (.during .block start .zeroIndentation c.mark)
  else if c.peek.isDigit then .ok (some (c.peek.toNat - '0'.toNat), c.next)
  else .ok (none, c)

/-- The signs after the indicator, in any order. -/
def header (start : Mark) (c : Cursor) : Except ReadError (Header × Cursor) := do
  let (header, c) ←
    match chomping? c with
    | some (chomping, c) => do
      let (digit?, c) ← increment start c
      pure (⟨chomping, digit?⟩, c)
    | none => do
      let (digit?, c) ← increment start c
      match if digit?.isSome then chomping? c else none with
      | some (chomping, c) => pure (⟨chomping, digit?⟩, c)
      | none => pure ({ increment? := digit? }, c)
  if c.peek == ' ' || isBreakOrEnd c.peek then return (header, c)
  throw (.during .block start (.indicatorExpected c.peek) c.mark)

/-- The rest of the line of the indicator: blanks, perhaps a comment, and the line break. -/
def headerEnd (start : Mark) (c : Cursor) : Except ReadError Cursor :=
  let c := c.skipWhile (· == ' ')
  let c := if c.peek == '#' then c.skipWhile fun ch => !isBreakOrEnd ch else c
  if isBreakOrEnd c.peek then .ok c.skipLineBreak
  else .error (.during .block start (.lineEndExpected c.peek) c.mark)

/-! ## Indentation -/

/-- Empty lines, and where the last of them ends. -/
structure Breaks where
  text : List Char
  stop : Mark
  after : Cursor

/-- Move over blanks up to a column. -/
def skipIndentation : Nat → Cursor → Cursor
  | 0, c => c
  | n + 1, c => if c.peek == ' ' then skipIndentation n c.next else c

/-- Empty lines, the blanks of which are less than the indentation, and the blanks of the line
after them. -/
def breaks (indentation : Nat) : Nat → Mark → Cursor → Breaks
  | 0, stop, c => ⟨[], stop, c⟩
  | fuel + 1, stop, c =>
    let c := skipIndentation (indentation - c.column) c
    match c.lineBreak? with
    | none => ⟨[], stop, c⟩
    | some (br, c) =>
      let more := breaks indentation fuel c.mark c
      { more with text := br :: more.text }

/-- Empty lines of any indentation before the first line. -/
structure Lead where
  breaks : List Char := []
  /-- The column of the first line break. -/
  first? : Option Nat := none
  /-- The most blanks of a line. -/
  width : Nat := 0
  stop : Mark
  after : Cursor

/-- Empty lines of any indentation, and the blanks of the line after them. -/
def lead : Nat → Lead → Lead
  | 0, l => l
  | fuel + 1, l =>
    let c := l.after
    if c.peek == ' ' then
      lead fuel { l with after := c.next, width := max l.width c.next.column }
    else
      match c.lineBreak? with
      | none => l
      | some (br, after) =>
        lead fuel
          { l with
            breaks := l.breaks ++ [br]
            first? := l.first?.or (some c.column)
            stop := after.mark
            after := after }

/-- The indentation of a scalar whose header does not tell it: that of its first line, or of an
empty line before it. A line before it must not be indented less than others. -/
def findIndentation (margin : Nat) (c : Cursor) : Except ReadError (Nat × Breaks) :=
  let l := lead c.bound { stop := c.mark, after := c }
  let first := l.first?.getD 0
  if 0 < first && first < l.width then
    .error (.malformed { activity? := some .indentedBlock, start? := some l.after.mark })
  else .ok (max margin l.width, ⟨l.breaks, l.stop, l.after⟩)

/-! ## Lines -/

/-- How the lines of a scalar are read. -/
structure Layout where
  isFolded : Bool
  indentation : Nat
  /-- Whether a document mark ends the scalar. -/
  endsAtMark : Bool

/-- The lines of a scalar. -/
structure Lines where
  text : List Char
  /-- The line break after the last line. -/
  lineBreak : List Char
  /-- What follows the last line. -/
  trailing : Breaks

/-- What stands between a line and the next, which begins with `next`. -/
def joint (layout : Layout) (isText : Bool) (lineBreak empty : List Char) (next : Char) :
    List Char :=
  -- Only lines of text are folded, and not those that are indented further.
  if layout.isFolded && lineBreak == ['\n'] && isText && !isBlank next then
    if empty.isEmpty then [' '] else []
  else lineBreak

/-- The lines from the cursor on, behind empty lines. -/
def lines (layout : Layout) : Nat → Breaks → Lines
  | 0, empty => ⟨[], [], empty⟩
  | fuel + 1, empty =>
    let c := empty.after
    if c.column != layout.indentation || c.rest.isEmpty then ⟨[], [], empty⟩
    else
      let (line, c) := c.span fun ch => !isBreakOrEnd ch
      let lineBreak := (c.lineBreak?.map Prod.fst).toList
      let c := c.skipLineBreak
      let trailing := breaks layout.indentation c.bound c.mark c
      let c := trailing.after
      let text := empty.text ++ line
      let atMark := layout.endsAtMark && c.column == 0 && c.atDocumentMark
      if atMark || c.column != layout.indentation || c.rest.isEmpty then
        ⟨text, lineBreak, trailing⟩
      else
        let isText := !isBlank (line.headD endMark)
        let more := lines layout fuel trailing
        let between := joint layout isText lineBreak trailing.text c.peek
        { more with text := text ++ between ++ more.text }

/-- A block scalar. -/
structure Scalar where
  text : String
  stop : Mark
  /-- Whether empty lines at its end were dropped. -/
  dropsLines : Bool
  after : Cursor

/-- A block scalar whose indicator is ahead. `margin` is the first column that is indented further
than the surroundings. -/
def read (isFolded : Bool) (margin : Nat) (c : Cursor) : Except ReadError Scalar := do
  let start := c.mark
  let (header, c) ← header start c.next
  let c ← headerEnd start c
  let (indentation, empty) ←
    match header.increment? with
    | none => findIndentation margin c
    | some n =>
      -- The digit counts from the column of the surroundings, and from zero where there are none.
      let indentation := max margin 1 + n - 1
      pure (indentation, breaks indentation c.bound c.mark c)
  let layout := ⟨isFolded, indentation, margin == 0 && header.increment?.isNone⟩
  let found := lines layout c.bound empty
  let tail :=
    match header.chomping with
    | .clip => found.lineBreak
    | .keep => found.lineBreak ++ found.trailing.text
    | .strip => []
  return {
    text := String.ofList (found.text ++ tail)
    stop := found.trailing.stop
    dropsLines := header.chomping != .keep && !found.trailing.text.isEmpty
    after := found.trailing.after }

end Schematic.Yaml.Block
