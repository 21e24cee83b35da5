import Schematic.Yaml.Cursor
import Schematic.Yaml.Error

/-!
# Names of anchors

## Main definitions

- `isNameChar` — the characters of names
- `readName` — the name of an anchor or alias
-/

namespace Schematic.Yaml

/-- A character that is neither a space nor an indicator of flow collections. -/
def isNameChar (c : Char) : Bool :=
  let n := c.toNat
  (0x21 ≤ n && n ≤ 0x7E || 0xA0 ≤ n && n != 0xFEFF && n != 0xFFFE && n != 0xFFFF) &&
    !",[]\x7b\x7d".toList.contains c

/-- A character that may follow a name. -/
def mayFollowName (c : Char) : Bool :=
  isSpaceOrEnd c || "?:,[]\x7b\x7d%@\x60".toList.contains c

/-- The name behind an indicator that is ahead. -/
def readName (kind : NameKind) (c : Cursor) : Except ReadError (String × Cursor) :=
  let (name, after) := c.next.span isNameChar
  if name.isEmpty || !mayFollowName after.peek then
    .error (.during (.name kind) c.mark (.nameExpected after.peek) after.mark)
  else .ok (String.ofList name, after)

end Schematic.Yaml
