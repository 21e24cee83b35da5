import Schematic.Yaml.Fold

/-!
# Space between tokens

Blanks, line breaks and comments stand between tokens; tabs only inside flow collections, or after
an empty line. A comment, and empty lines in a row, count as one piece of space.

## Main definitions

- `Space` — a piece of space
- `readSpace` — the space up to a token, or up to the end of a comment
- `skipSpace` — all space up to a token
-/

namespace Schematic.Yaml

/-- A piece of space. -/
structure Space where
  /-- Whether it ends with a comment or empty lines, so that more space may follow. -/
  isComment : Bool
  crossesLine : Bool
  after : Cursor

/-- Lines that follow each other, of any indentation. -/
def readLines (inFlow : Bool) : Nat → Bool → Cursor → Space
  | 0, crossesLine, c => ⟨false, crossesLine, c⟩
  | fuel + 1, crossesLine, c =>
    let c := c.skipWhile fun ch => ch == ' ' || inFlow && ch == '\t'
    if c.peek == '#' then
      let c := c.skipWhile fun ch => !isBreakOrEnd ch
      ⟨true, true, c.skipWhile isBreak⟩
    else
      match c.lineBreak? with
      | none => ⟨false, crossesLine, c⟩
      | some (_, c) =>
        if c.peek == '\n' then ⟨true, true, c.skipWhile fun ch => isBreak ch || isBlank ch⟩
        else readLines inFlow fuel true c

/-- The space up to a token, or up to the end of a comment or of empty lines. A byte order mark at
the start of the text is space. -/
def readSpace (inFlow : Bool) (c : Cursor) : Space :=
  let c := if c.mark.index == 0 && c.peek == '\uFEFF' then c.next else c
  readLines inFlow c.bound false c

/-- All space up to a token. -/
def skipSpace (inFlow : Bool) : Nat → Cursor → Cursor
  | 0, c => c
  | fuel + 1, c =>
    let space := readSpace inFlow c
    if space.isComment then skipSpace inFlow fuel space.after else space.after

end Schematic.Yaml
