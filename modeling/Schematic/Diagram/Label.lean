import Schematic.Text.Blank

/-!
# Labels

Text as it stands between the quotes of a diagram statement: on one line and without a quote.

## Main definitions

- `Label.escape`, `label` — the text of a label
- `truncate` — a text cut to a number of characters
-/

namespace Schematic

/-- Quotes as entities and line ends as breaks. -/
def Label.escape : List Char → List Char
  | [] => []
  | '"' :: rest => "&quot;".toList ++ escape rest
  | '\r' :: '\n' :: rest => "<br/>".toList ++ escape rest
  | '\n' :: rest => "<br/>".toList ++ escape rest
  | c :: rest => c :: escape rest

/-- The label of a text, without blanks at its ends. -/
def label (text : String) : String :=
  String.ofList (Text.trim (Label.escape text.toList))

/-- The number of characters that a limit leaves: a negative limit counts from the end. -/
def Label.kept (length : Nat) (limit : Int) : Nat :=
  if limit < 0 then (length + limit).toNat else limit.toNat

/-- A text cut to a limit; three dots say that something was cut off. -/
def truncate (text : String) (limit : Int) : String :=
  let cs := text.toList
  if limit < cs.length then String.ofList (cs.take (Label.kept cs.length limit)) ++ "..."
  else text

end Schematic
