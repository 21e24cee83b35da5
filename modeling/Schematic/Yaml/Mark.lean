/-!
# Places in a YAML text

A place is shown with the part of its line around it and a caret below.

## Main definitions

- `Mark` — a place, counted in characters, lines and columns from zero
- `isBreakOrEnd` — the characters that bound a line
- `Mark.excerpt`, `Mark.text` — the line around a place, and the whole description of a place
-/

namespace Schematic.Yaml

/-- The character that stands for the end of a text. No text holds it. -/
def endMark : Char := '\x00'

/-- A line break of any kind. -/
def isBreak (c : Char) : Bool :=
  c == '\n' || c == '\r' || c == '\u0085' || c == '\u2028' || c == '\u2029'

/-- A line break or the end of the text. -/
def isBreakOrEnd (c : Char) : Bool :=
  isBreak c || c == endMark

/-- A blank, a tab, a line break or the end of the text. -/
def isSpaceOrEnd (c : Char) : Bool :=
  isBreakOrEnd c || c == ' ' || c == '\t'

/-- A place in a text. -/
structure Mark where
  index : Nat
  line : Nat
  column : Nat
deriving DecidableEq, Repr

namespace Mark

/-- An excerpt shows fewer characters than this on each side, or is cut. -/
def excerptLimit : Nat := 37

/-- What is left on a side that is cut. -/
def excerptKept : Nat := 32

/-- The mark of a side that is cut. -/
def ellipsis : List Char := " ... ".toList

/-- The characters of one side that an excerpt shows, from the place outward, and whether more of
them were cut off. -/
def side (cs : List Char) : List Char × Bool :=
  let near := (cs.take excerptLimit).takeWhile fun c => !isBreakOrEnd c
  if near.length < excerptLimit then (near, false) else (near.take excerptKept, true)

/-- Blanks. -/
def blanks (n : Nat) : List Char :=
  List.replicate n ' '

/-- The line around a place and a caret below the place. -/
def excerpt (text : List Char) (mark : Mark) : List Char :=
  let (before, cutBefore) := side (text.take mark.index).reverse
  let (after, cutAfter) := side (text.drop mark.index)
  let head := if cutBefore then ellipsis else []
  let tail := if cutAfter then ellipsis else []
  blanks 4 ++ head ++ before.reverse ++ after ++ tail ++ '\n' ::
    blanks (4 + before.length + head.length) ++ s!"^ (line: {mark.line + 1})".toList

/-- The description of a place. -/
def text (source : List Char) (mark : Mark) : String :=
  s!"  in \"<unicode string>\", line {mark.line + 1}, column {mark.column + 1}:\n" ++
    String.ofList (excerpt source mark)

end Mark

end Schematic.Yaml
