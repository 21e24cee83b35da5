import Schematic.Yaml.Mark

/-!
# Cursors

A cursor is a place in a text together with what is left of the text. All lexers take a cursor and
return a later one.

A line feed ends a line, and so does a carriage return without one. Other line breaks separate
lines of a scalar, but the count of lines does not see them.

## Main definitions

- `Cursor` — a place and what is left
- `Cursor.peek`, `Cursor.peekAt` — the characters ahead
- `Cursor.skip`, `Cursor.span` — moving on
- `Cursor.lineBreak?` — a line break ahead, in its normal form
- `Cursor.atDocumentMark` — whether a document mark is ahead
-/

namespace Schematic.Yaml

/-- The place after a character, given the character that follows it. -/
def Mark.past (mark : Mark) (c : Char) (next : Option Char) : Mark :=
  if c == '\n' || c == '\r' && next != some '\n' then ⟨mark.index + 1, mark.line + 1, 0⟩
  else if c == '\uFEFF' then { mark with index := mark.index + 1 }
  else { mark with index := mark.index + 1, column := mark.column + 1 }

/-- A place in a text and what is left of the text. -/
structure Cursor where
  mark : Mark
  rest : List Char
  /-- More than the number of characters that are left, so that it bounds every walk over them. -/
  bound : Nat
deriving Repr

namespace Cursor

/-- The start of a text. -/
def start (text : List Char) : Cursor :=
  ⟨⟨0, 0, 0⟩, text, text.length + 1⟩

/-- The next character, or the end mark. -/
def peek (c : Cursor) : Char :=
  c.rest.headD endMark

/-- The character after `n` others, or the end mark. -/
def peekAt (c : Cursor) (n : Nat) : Char :=
  (c.rest.drop n).headD endMark

def column (c : Cursor) : Nat :=
  c.mark.column

/-- Move over one character. -/
def next (c : Cursor) : Cursor :=
  match c.rest with
  | [] => c
  | ch :: rest => { c with mark := c.mark.past ch rest.head?, rest := rest }

/-- Move over `n` characters. -/
def skip : Nat → Cursor → Cursor
  | 0, c => c
  | n + 1, c => skip n c.next

/-- The longest run of characters that satisfy a predicate, and the cursor after it. -/
def span (p : Char → Bool) (c : Cursor) : List Char × Cursor :=
  let run := c.rest.takeWhile p
  (run, c.skip run.length)

/-- Move over the longest run of characters that satisfy a predicate. -/
def skipWhile (p : Char → Bool) (c : Cursor) : Cursor :=
  (c.span p).2

/-- A line break ahead: in its normal form, a line feed for all but the Unicode separators, and
with the cursor after it. -/
def lineBreak? (c : Cursor) : Option (Char × Cursor) :=
  match c.rest with
  | '\r' :: '\n' :: _ => some ('\n', c.skip 2)
  | ch :: _ =>
    if ch == '\u2028' || ch == '\u2029' then some (ch, c.next)
    else if isBreak ch then some ('\n', c.next)
    else none
  | [] => none

/-- Move over a line break, if one is ahead. -/
def skipLineBreak (c : Cursor) : Cursor :=
  match c.lineBreak? with
  | some (_, after) => after
  | none => c

/-- Whether the text goes on with three dashes, and then with a space or not at all. -/
def atDocumentStart (c : Cursor) : Bool :=
  c.rest.take 3 == ['-', '-', '-'] && isSpaceOrEnd (c.peekAt 3)

/-- Whether the text goes on with three dots, and then with a space or not at all. -/
def atDocumentEnd (c : Cursor) : Bool :=
  c.rest.take 3 == ['.', '.', '.'] && isSpaceOrEnd (c.peekAt 3)

/-- Whether a document mark is ahead. -/
def atDocumentMark (c : Cursor) : Bool :=
  c.atDocumentStart || c.atDocumentEnd

end Cursor

end Schematic.Yaml
