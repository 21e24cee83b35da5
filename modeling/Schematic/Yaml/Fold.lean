import Schematic.Yaml.Cursor
import Schematic.Yaml.Error

/-!
# Folding lines

Inside a scalar that is written on several lines, one line feed stands for a blank, and more of
them for one line feed less. A Unicode separator stands for itself.

## Main definitions

- `folded` — what line breaks in a row stand for
- `isBlank` — the characters that separate words on a line
-/

namespace Schematic.Yaml

/-- A blank or a tab. -/
def isBlank (c : Char) : Bool :=
  c == ' ' || c == '\t'

/-- What a line break and those that follow it stand for. -/
def folded (first : Char) (more : List Char) : List Char :=
  if first != '\n' then first :: more
  else if more.isEmpty then [' ']
  else more

end Schematic.Yaml
