import Schematic.Value.Text

/-!
# Names in a tree

Places that hold one name, a list of names, or a mapping by name.

## Main definitions

- `Value.names` — the names that a place holds
- `Value.nameOr` — the text of a scalar, unless it is empty
-/

namespace Schematic.Value

/-- The texts among the items of a value. -/
def textItems (v : Value) : List String :=
  v.items.filterMap str?

/-- The keys of a mapping, or else the texts among the items. -/
def names : Value → List String
  | map es => Entries.keys es
  | v => v.textItems

/-- The text of the scalar under a key, or a default instead of none or an empty one. -/
def nameOr (v : Value) (key otherwise : String) : Except NumberError String := do
  let name ← v.getText key
  return if name = "" then otherwise else name

end Schematic.Value
