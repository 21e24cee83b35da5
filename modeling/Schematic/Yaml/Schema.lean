import Schematic.Text.Search
import Schematic.Yaml.Timestamp

/-!
# Kinds of plain scalars

What a plain scalar is depends on its text and on the version of the language. The older version
knows more words for truth values, octal numbers with a leading zero, and numbers in base sixty.

## Main definitions

- `ScalarKind` — what a plain scalar can be
- `Schema.kind` — what a plain scalar is
-/

namespace Schematic.Yaml

/-- What a plain scalar can be. -/
inductive ScalarKind where
  | bool
  | float
  | int
  /-- The key under which mappings are merged. -/
  | merge
  | null
  | timestamp
  /-- The key of a default value. -/
  | value
  | text
deriving DecidableEq, Repr

namespace Schema

/-! ## Parts of numbers -/

/-- A text without its sign. -/
def dropSign (cs : List Char) : List Char :=
  match cs with
  | '-' :: rest => rest
  | '+' :: rest => rest
  | cs => cs

/-- A digit or an underscore. -/
def isDigitOrScore (c : Char) : Bool :=
  c.isDigit || c == '_'

/-- A non-empty text whose characters satisfy a predicate. -/
def isRun (p : Char → Bool) (cs : List Char) : Bool :=
  !cs.isEmpty && cs.all p

def isBinaryDigit (c : Char) : Bool :=
  c == '0' || c == '1' || c == '_'

def isOctalDigit (c : Char) : Bool :=
  '0' ≤ c && c ≤ '7' || c == '_'

def isHexDigit (c : Char) : Bool :=
  c.isDigit || 'a' ≤ c && c ≤ 'f' || 'A' ≤ c && c ≤ 'F' || c == '_'

/-- An exponent; its sign may be required. -/
def isExponent (needsSign : Bool) (cs : List Char) : Bool :=
  match cs with
  | c :: rest =>
    (c == 'e' || c == 'E') &&
      isRun Char.isDigit (dropSign rest) && (!needsSign || (dropSign rest).length < rest.length)
  | [] => false

/-- A text between colons of a number in base sixty: one digit, or two of which the first is less
than six. -/
def isSexagesimal (cs : List Char) : Bool :=
  match cs with
  | [d] => d.isDigit
  | [t, d] => '0' ≤ t && t ≤ '5' && d.isDigit
  | _ => false

/-- The parts of a text between colons. -/
def parts (cs : List Char) : List (List Char) :=
  Text.splitAtChar ':' cs

/-! ## Numbers -/

/-- A number with the mark of its base, after its sign. -/
def isBased (cs : List Char) : Bool :=
  match cs with
  | '0' :: 'b' :: rest => isRun isBinaryDigit rest
  | '0' :: 'x' :: rest => isRun isHexDigit rest
  | _ => false

/-- A text that begins with a sign or a digit. -/
def startsInt (cs : List Char) : Bool :=
  let c := cs.headD ' '
  c.isDigit || c == '-' || c == '+'

/-- An integer of the newer version, given that its text begins like one. -/
def isInt (cs : List Char) : Bool :=
  let cs := dropSign cs
  isBased cs || isRun isDigitOrScore cs ||
    match cs with
    | '0' :: 'o' :: rest => isRun isOctalDigit rest
    | _ => false

/-- An integer in base sixty of the older version, after its sign. -/
def isSexagesimalInt (cs : List Char) : Bool :=
  match parts cs with
  | (d :: ds) :: rest =>
    d.isDigit && d != '0' && ds.all isDigitOrScore && !rest.isEmpty && rest.all isSexagesimal
  | _ => false

/-- An integer of the older version, given that its text begins like one. -/
def isOldInt (cs : List Char) : Bool :=
  let cs := dropSign cs
  isBased cs || isRun isOctalDigit cs || isSexagesimalInt cs ||
    match cs with
    | d :: ds => d.isDigit && d != '0' && ds.all isDigitOrScore
    | [] => false

/-- An infinity, or not a number. -/
def isSpecialFloat (cs : List Char) : Bool :=
  let named := String.ofList (dropSign cs)
  [".inf", ".Inf", ".INF"].contains named ||
    [".nan", ".NaN", ".NAN"].contains (String.ofList cs)

/-- A decimal with digits before the point or the exponent. -/
def isDecimal (cs : List Char) : Bool :=
  let cs := dropSign cs
  let rest := cs.dropWhile isDigitOrScore
  (cs.headD ' ').isDigit &&
    match rest with
    | '.' :: rest =>
      let rest := rest.dropWhile isDigitOrScore
      rest.isEmpty || isExponent false rest
    | rest => isExponent false rest

/-- A decimal that begins with a point. -/
def isFraction (cs : List Char) : Bool :=
  match cs with
  | '.' :: rest =>
    let tail := rest.dropWhile isDigitOrScore
    tail.length < rest.length && (tail.isEmpty || isExponent true tail)
  | _ => false

/-- A decimal of the newer version. -/
def isFloat (cs : List Char) : Bool :=
  isDecimal cs || isFraction (dropSign cs) || isSpecialFloat cs

/-- A decimal in base sixty. -/
def isSexagesimalFloat (cs : List Char) : Bool :=
  match Text.cutAtChar? '.' cs with
  | some (whole, fraction) =>
    fraction.all isDigitOrScore &&
      match parts (dropSign whole) with
      | (d :: ds) :: rest =>
        d.isDigit && ds.all isDigitOrScore && !rest.isEmpty && rest.all isSexagesimal
      | _ => false
  | none => false

/-- A decimal of the older version. -/
def isOldFloat (cs : List Char) : Bool :=
  isDecimal cs || isFraction cs || isSexagesimalFloat cs || isSpecialFloat cs

/-! ## Words -/

/-- Truth values of the newer version. -/
def boolWords : List String :=
  ["true", "True", "TRUE", "false", "False", "FALSE"]

/-- Truth values that only the older version knows. -/
def oldBoolWords : List String :=
  ["y", "Y", "yes", "Yes", "YES", "n", "N", "no", "No", "NO", "on", "On", "ON", "off", "Off",
    "OFF"]

/-- The words for nothing. -/
def nullWords : List String :=
  ["", "~", "null", "Null", "NULL"]

/-- What a plain scalar of a minor version is. Other versions than the two known ones have no
rules. -/
def kind (minor : Nat) (text : String) : Except Fault ScalarKind :=
  let cs := text.toList
  let isOld := minor == 1
  -- A text may fit several kinds, and the first of them counts.
  if minor != 1 && minor != 2 then .error (.version minor)
  else if boolWords.contains text || isOld && oldBoolWords.contains text then .ok .bool
  else if if isOld then isOldFloat cs else isFloat cs then .ok .float
  else if startsInt cs && (if isOld then isOldInt cs else isInt cs) then .ok .int
  else if text == "<<" then .ok .merge
  else if nullWords.contains text then .ok .null
  else if Timestamp.isPlain cs then .ok .timestamp
  else if text == "=" then .ok .value
  else .ok .text

end Schema

end Schematic.Yaml
