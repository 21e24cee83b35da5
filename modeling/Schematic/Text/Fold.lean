/-!
# Lower case, as far as ASCII keywords can see

Keywords of the rule tables are ASCII text. Only two characters outside ASCII have a lower case
with an ASCII letter in it, the Kelvin sign and the capital I with a dot, so lowering these and
the ASCII capitals finds the same keywords as lowering every letter.

## Main definitions

- `foldChar`, `fold` — lower case of a character and of a text
-/

namespace Schematic.Text

/-- The lower case of a character, apart from letters that lower to letters outside ASCII. -/
def foldChar (c : Char) : List Char :=
  if c = '\u0130' then ['i', '\u0307']
  else if c = '\u212A' then ['k']
  else [c.toLower]

/-- The lower case of a text, for the search of ASCII keywords. -/
def fold (cs : List Char) : List Char :=
  cs.flatMap foldChar

end Schematic.Text
