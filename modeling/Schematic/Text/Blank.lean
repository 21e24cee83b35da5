/-!
# Blank characters and lines

What counts as white space around a text, and where a text breaks into lines. Both follow the
Unicode properties `White_Space` (with the four information separators) and the line boundaries
of running text, so a no-break space is trimmed and a form feed ends a line.

## Main definitions

- `isBlank`, `trimLeft`, `trimRight`, `trim` — white space and its removal at the ends of a text
- `isLineBreak`, `lines` — line boundaries and the lines between them
-/

namespace Schematic.Text

/-- White space: the characters that `trim` removes from the ends of a text. -/
def isBlank (c : Char) : Bool :=
  let n := c.toNat
  (0x09 ≤ n && n ≤ 0x0D) || (0x1C ≤ n && n ≤ 0x20) || n == 0x85 || n == 0xA0 || n == 0x1680 ||
    (0x2000 ≤ n && n ≤ 0x200A) || n == 0x2028 || n == 0x2029 || n == 0x202F || n == 0x205F ||
    n == 0x3000

/-- Remove leading blanks. -/
def trimLeft (cs : List Char) : List Char :=
  cs.dropWhile isBlank

/-- Remove trailing blanks. -/
def trimRight (cs : List Char) : List Char :=
  (cs.reverse.dropWhile isBlank).reverse

/-- Remove blanks at both ends. -/
def trim (cs : List Char) : List Char :=
  trimRight (trimLeft cs)

/-- A text without any character that is not blank. -/
def isAllBlank (cs : List Char) : Bool :=
  cs.all isBlank

/-- A character that ends a line of running text. -/
def isLineBreak (c : Char) : Bool :=
  let n := c.toNat
  (0x0A ≤ n && n ≤ 0x0D) || (0x1C ≤ n && n ≤ 0x1E) || n == 0x85 || n == 0x2028 || n == 0x2029

/-- The lines of a text without their line breaks. A carriage return with a line feed is one
break, and a break at the very end opens no further line. -/
def lines : List Char → List (List Char)
  | [] => []
  | '\r' :: '\n' :: rest => [] :: lines rest
  | c :: rest =>
    if isLineBreak c then [] :: lines rest
    else
      match lines rest with
      | [] => [[c]]
      | line :: more => (c :: line) :: more

end Schematic.Text
