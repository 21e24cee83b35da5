import Schematic.Json.Error
import Schematic.Value.Text

/-!
# Writing JSON

The JSON text of a value on one line, in ASCII: a blank after each comma and colon, and every
character outside ASCII escaped in UTF-16 units. Values that JSON has no form for are written as
the string of their text.

The writer goes down into lists, mappings and pairs as long as there is room, and the string of a
text takes a level, too. The text itself is made in one go.

## Main definitions

- `write` — the JSON text of a value
-/

namespace Schematic.Json

/-- The escape of a UTF-16 unit. -/
def unitEscape (n : Nat) : List Char :=
  '\\' :: 'u' :: Text.hex 4 n

/-- A character between the quotes of a JSON string. -/
def writeChar (c : Char) : List Char :=
  if c = '"' then ['\\', '"']
  else if c = '\\' then ['\\', '\\']
  else if c = '\n' then ['\\', 'n']
  else if c = '\r' then ['\\', 'r']
  else if c = '\t' then ['\\', 't']
  else if c = '\x0C' then ['\\', 'f']
  else if c = '\x08' then ['\\', 'b']
  else
    let n := c.toNat
    if 0x20 ≤ n && n < 0x7F then [c]
    else if n < 0x10000 then unitEscape n
    else
      let m := n - 0x10000
      unitEscape (0xD800 + m / 0x400) ++ unitEscape (0xDC00 + m % 0x400)

/-- A text as a JSON string. -/
def writeString (s : String) : List Char :=
  '"' :: s.toList.flatMap writeChar ++ ['"']

/-- A floating-point number; the ones without digits have names. -/
def writeFloat (x : Binary64) : List Char :=
  if x.isNaN then "NaN".toList
  else if x.isInfinite then (if x.isNegative then "-Infinity".toList else "Infinity".toList)
  else x.text.toList

/-- A number that has no text leaves the tree without one. -/
def ofNumber {α : Type} (result : Except NumberError α) : Except WriteError α :=
  result.mapError .number

/-- What is written inside one more level, if there is room for it. -/
def inside {α : Type} (limit : Nat) (content : Nat → Except WriteError α) : Except WriteError α :=
  match limit with
  | 0 => .error .tooDeep
  | left + 1 => content left

mutual

/-- The JSON text of a value in which at most `limit` levels are inside each other. -/
def write (limit : Nat) : Value → Except WriteError (List Char)
  | .null => .ok "null".toList
  | .bool b => .ok (if b then "true".toList else "false".toList)
  | .int n => ofNumber ((writeInt n).map String.toList)
  | .float x => .ok (writeFloat x)
  | .str s => .ok (writeString s)
  | .list xs => inside limit fun left => do
    let parts ← writeItems left xs
    return '[' :: List.intercalate [',', ' '] parts ++ [']']
  | .map es => inside limit fun left => do
    let parts ← writeEntries left es
    return '{' :: List.intercalate [',', ' '] parts ++ ['}']
  | .bytes bs => inside limit fun _ => ofNumber ((Value.quoted (.bytes bs)).map writeString)
  | .set ms => inside limit fun _ => ofNumber ((Value.quoted (.set ms)).map writeString)
  | .pair a b => inside limit fun left => do
    let first ← write left a
    let second ← write left b
    return '[' :: first ++ ',' :: ' ' :: second ++ [']']
termination_by structural v => v

/-- The JSON texts of the items of a list. -/
def writeItems (limit : Nat) : List Value → Except WriteError (List (List Char))
  | [] => .ok []
  | x :: xs => do
    let first ← write limit x
    let rest ← writeItems limit xs
    return first :: rest
termination_by structural xs => xs

/-- The JSON texts of the entries of a mapping. -/
def writeEntries (limit : Nat) : List (String × Value) → Except WriteError (List (List Char))
  | [] => .ok []
  | (k, v) :: es => do
    let first ← write limit v
    let rest ← writeEntries limit es
    return (writeString k ++ ':' :: ' ' :: first) :: rest
termination_by structural es => es

end

end Schematic.Json
