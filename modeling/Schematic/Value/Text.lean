import Schematic.Number.Reading
import Schematic.Number.Shortest
import Schematic.Text.Search
import Schematic.Value.Basic

/-!
# Text of values

How a value reads in a label. A text is shown as it is; inside a list or mapping it is quoted.
Integers beyond the digit limit have no text, so the functions can fail.

## Main definitions

- `Value.quoted` — the written form inside a container
- `Value.text` — the written form on its own
- `Value.getText` — the text of a scalar under a key
-/

namespace Schematic.Value

mutual

/-- The written form of a value inside a list or mapping. -/
def quoted : Value → Except NumberError String
  | null => .ok "None"
  | bool b => .ok (if b then "True" else "False")
  | int n => writeInt n
  | float x => .ok x.text
  | str s => .ok (Text.quoted s)
  | list xs => do return "[" ++ Text.join ", " (← quotedItems xs) ++ "]"
  | map es => do return "\x7b" ++ Text.join ", " (← quotedEntries es) ++ "\x7d"
  | bytes bs => .ok (Text.quotedBytes bs)
  | set ms => do return "set(odict_keys([" ++ Text.join ", " (← quotedItems ms) ++ "]))"
  | pair a b => do
    let first ← quoted a
    let second ← quoted b
    return "(" ++ first ++ ", " ++ second ++ ")"
termination_by structural v => v

/-- The written forms of the items of a list. -/
def quotedItems : List Value → Except NumberError (List String)
  | [] => .ok []
  | x :: xs => do
    let first ← quoted x
    let rest ← quotedItems xs
    return first :: rest
termination_by structural xs => xs

/-- The written forms of the entries of a mapping. -/
def quotedEntries : List (String × Value) → Except NumberError (List String)
  | [] => .ok []
  | (k, v) :: es => do
    let first ← quoted v
    let rest ← quotedEntries es
    return (Text.quoted k ++ ": " ++ first) :: rest
termination_by structural es => es

end

/-- The written form of a value on its own: a text stands for itself. -/
def text : Value → Except NumberError String
  | str s => .ok s
  | v => v.quoted

/-- The text of a scalar on its own, `otherwise` for null, lists and mappings. Booleans are in
lower case, unlike inside a container. -/
def scalarText (v : Value) (otherwise : String) : Except NumberError String :=
  match v with
  | null | list _ | map _ => .ok otherwise
  | bool b => .ok (if b then "true" else "false")
  | v => v.text

/-- The text of the scalar under a key. -/
def getText (v : Value) (key : String) (otherwise : String := "") : Except NumberError String :=
  (v.get key).scalarText otherwise

end Schematic.Value
