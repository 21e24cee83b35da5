import Schematic.Number.Reading
import Schematic.Text.Search
import Schematic.Yaml.Error

/-!
# Values of plain scalars

The numbers and truth values that scalars stand for. A text need not look like a number: a tag can
say that it is one, and then it may turn out to have no value.

## Main definitions

- `Numeral.integer`, `Numeral.decimal` — numbers
- `Numeral.truth` — truth values
-/

namespace Schematic.Yaml.Numeral

/-- A text without underscores, and without its sign. The text must not be empty. -/
def unsigned (cs : List Char) : Except Fault (Bool × List Char) :=
  match cs.filter (· != '_') with
  | [] => .error .emptyNumber
  | '-' :: rest => .ok (true, rest)
  | '+' :: rest => .ok (false, rest)
  | cs => .ok (false, cs)

/-- An integer with its sign. -/
def signed (negative : Bool) (n : Int) : Int :=
  if negative then -n else n

def readDigits (base : Nat) (cs : List Char) : Except Fault Int :=
  (readInt base (String.ofList cs)).mapError .number

/-- The parts of a number in base sixty, put together. -/
def sexagesimal (parts : List Int) : Int :=
  parts.foldl (fun n part => n * 60 + part) 0

/-- The value of the digits behind the mark of a base. The newer version looks at the first of
them. -/
def based (minor base : Nat) (cs : List Char) : Except Fault Int :=
  if cs.isEmpty && 1 < minor then .error .emptyNumber else readDigits base cs

/-- The integer that a text stands for. -/
def integer (minor : Nat) (text : String) : Except Fault Int := do
  let (negative, cs) ← unsigned text.toList
  match cs with
  | ['0'] => return 0
  | '0' :: 'b' :: rest => return signed negative (← based minor 2 rest)
  | '0' :: 'x' :: rest => return signed negative (← based minor 16 rest)
  | '0' :: 'o' :: rest => return signed negative (← based minor 8 rest)
  | [] => throw .emptyNumber
  -- For the older version a zero in front is the mark of base eight.
  | '0' :: _ => return signed negative (← readDigits (if minor = 2 then 10 else 8) cs)
  | cs =>
    if minor != 2 && cs.contains ':' then
      return signed negative (sexagesimal (← (Text.splitAtChar ':' cs).mapM (readDigits 10)))
    else return signed negative (← readDigits 10 cs)

/-! ## Decimals -/

/-- A number with the opposite sign if asked for. -/
def signedDecimal (negative : Bool) (x : Binary64) : Binary64 :=
  if negative then Binary64.ofFields (!x.isNegative) x.exponentField x.fractionField else x

/-- A finite number as a ratio with a positive denominator. -/
def ratio (x : Binary64) : Int × Nat :=
  let (num, den) := x.magnitude
  (signed x.isNegative num, den)

/-- The number nearest to a ratio. -/
def ofRatio (num : Int) (den : Nat) : Binary64 :=
  Binary64.ofRatio (num < 0) num.natAbs den

/-- Add a part of a number in base sixty: every product and every sum is rounded. -/
def addPart (sum : Binary64) (part : Binary64) (weight : Nat) : Binary64 :=
  let (num, den) := ratio part
  let (num, den) := ratio (ofRatio (num * weight) den)
  let (sumNum, sumDen) := ratio sum
  ofRatio (sumNum * den + num * sumDen) (sumDen * den)

/-- The parts of a number in base sixty, put together from the last on. -/
def sexagesimalDecimal (parts : List Binary64) : Binary64 :=
  (parts.reverse.foldl (fun (sum, weight) part => (addPart sum part weight, weight * 60))
    (Binary64.zero false, 1)).1

def readPart (cs : List Char) : Except Fault Binary64 :=
  (readDecimal (String.ofList cs)).mapError .number

/-- An exponent mark divides a text into two parts, the second of which is not empty. Small letters
are looked for first. -/
def checkExponent (cs : List Char) : Except Fault Unit :=
  let small := Text.splitAtChar 'e' cs
  let parts := if small.length = 2 then small else Text.splitAtChar 'E' cs
  match parts with
  | [_, []] => .error .emptyNumber
  | [_, _] => .ok ()
  | parts => .error (.exponentMarks (parts.length - 1))

/-- The decimal that a text stands for. -/
def decimal (minor : Nat) (text : String) : Except Fault Binary64 := do
  let (negative, cs) ← unsigned (text.toList.map Char.toLower)
  match String.ofList cs with
  | ".inf" => return Binary64.infinity negative
  | ".nan" => return Binary64.nan
  | _ =>
    if minor != 2 && cs.contains ':' then
      let parts ← (Text.splitAtChar ':' cs).mapM readPart
      return signedDecimal negative (sexagesimalDecimal parts)
    -- The mark is looked for in any case, but checked in the text as it was written.
    if cs.contains 'e' then checkExponent text.toList
    return signedDecimal negative (← readPart cs)

/-! ## Truth values -/

/-- Words for truth. -/
def trueWords : List String := ["yes", "y", "true", "on"]

/-- Words for falsehood. -/
def falseWords : List String := ["no", "n", "false", "off"]

/-- The truth value that a text stands for, in any case. -/
def truth (text : String) : Except Fault Bool :=
  let word := String.ofList (text.toList.map Char.toLower)
  if trueWords.contains word then .ok true
  else if falseWords.contains word then .ok false
  else .error (.notABool word)

end Schematic.Yaml.Numeral
