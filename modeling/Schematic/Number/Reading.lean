import Schematic.Number.Binary64
import Schematic.Number.Error
import Schematic.Text.Blank
import Schematic.Text.Digit

/-!
# Reading and writing numbers

Integers and decimals as people write them: blanks around the number, a sign, single underscores
between digits, and the decimal digits of any script.

## Main definitions

- `readInt` — an integer in a given base
- `readDecimal` — a decimal number
- `writeInt` — the decimal text of an integer
-/

namespace Schematic

namespace Reading

/-! ## Padding -/

/-- A blank that may stand around a number. The information separators may not. -/
def isPadding (c : Char) : Bool :=
  Text.isBlank c && !(0x1C ≤ c.toNat && c.toNat ≤ 0x1F)

/-- A text without the blanks around a number. -/
def trimPadding (cs : List Char) : List Char :=
  ((cs.dropWhile isPadding).reverse.dropWhile isPadding).reverse

/-! ## Digits -/

/-- The value of a digit in bases up to sixteen; ASCII letters stand for ten to fifteen. -/
def baseDigit? (base : Nat) (c : Char) : Option Nat :=
  let value :=
    match Text.digitValue? c with
    | some d => some d
    | none =>
      let n := c.toLower.toNat
      if 0x61 ≤ n && n ≤ 0x66 then some (n - 0x61 + 10) else none
  value.filter (· < base)

/-- Digits with single underscores between them, from the front of a text: their values and the
rest. A text that starts with an underscore, or two underscores in a row, or an underscore that
no digit follows, is refused. -/
def digitRun? (base : Nat) : List Char → Option (List Nat × List Char)
  | '_' :: c :: rest =>
    match baseDigit? base c with
    | some d => (digitRun? base rest).map fun (ds, rest) => (d :: ds, rest)
    | none => none
  | ['_'] => none
  | c :: rest =>
    match baseDigit? base c with
    | some d => (digitRun? base rest).map fun (ds, rest) => (d :: ds, rest)
    | none => some ([], c :: rest)
  | [] => some ([], [])

/-- One digit run, which begins with a digit. -/
def number? (base : Nat) (cs : List Char) : Option (List Nat × List Char) :=
  match cs with
  | '_' :: _ => none
  | cs => (digitRun? base cs).filter fun (ds, _) => !ds.isEmpty

/-- The number that digits stand for. -/
def ofDigits (base : Nat) (ds : List Nat) : Nat :=
  ds.foldl (fun n d => n * base + d) 0

/-- A sign and what follows it. -/
def sign (cs : List Char) : Bool × List Char :=
  match cs with
  | '-' :: rest => (true, rest)
  | '+' :: rest => (false, rest)
  | cs => (false, cs)

/-- The letter that may follow a zero in front of digits of a base. -/
def basePrefix? : Nat → Option Char
  | 2 => some 'b'
  | 8 => some 'o'
  | 16 => some 'x'
  | _ => none

/-- The digits without the mark of their base, such as `0x`. -/
def dropBaseMark (base : Nat) (cs : List Char) : List Char :=
  match cs with
  | '0' :: c :: rest =>
    if basePrefix? base = some c.toLower then
      match rest with
      | '_' :: rest => rest
      | rest => rest
    else cs
  | cs => cs

/-! ## Integers -/

/-- An integer in base 2, 8, 10 or 16. In base ten the number of digits is limited, and the limit
is looked at before what follows the digits. -/
def integer (base : Nat) (text : String) : Except NumberError Int :=
  let refuse := Except.error (NumberError.notAnInteger text base)
  let (negative, cs) := sign (trimPadding text.toList)
  match number? base (dropBaseMark base cs) with
  | none => refuse
  | some (ds, rest) =>
    if base = 10 && digitLimit < ds.length then .error (.tooManyDigits ds.length)
    else if rest.isEmpty then
      let n : Int := ofDigits base ds
      .ok (if negative then -n else n)
    else refuse

/-! ## Decimals -/

/-- An exponent mark with its exponent at the end of a number, zero if the text is at its end. -/
def exponent? : List Char → Option Int
  | [] => some 0
  | c :: rest =>
    if c = 'e' || c = 'E' then
      let (negative, rest) := sign rest
      match number? 10 rest with
      | some (ds, []) =>
        let n : Int := ofDigits 10 ds
        some (if negative then -n else n)
      | _ => none
    else none

/-- Digits with a point among them and perhaps an exponent. -/
def mantissa? (negative : Bool) (cs : List Char) : Option Binary64 :=
  let (whole, rest) := (number? 10 cs).getD ([], cs)
  let (fraction, rest) :=
    match rest with
    | '.' :: rest => (number? 10 rest).getD ([], rest)
    | rest => ([], rest)
  if whole.isEmpty && fraction.isEmpty then none
  else (exponent? rest).map fun e =>
    Binary64.ofDecimal negative (ofDigits 10 (whole ++ fraction)) (e - fraction.length)

/-- A decimal number, an infinity or NaN. -/
def decimal? (cs : List Char) : Option Binary64 :=
  let (negative, cs) := sign (trimPadding cs)
  let name := String.ofList (cs.map Char.toLower)
  if name = "inf" || name = "infinity" then some (Binary64.infinity negative)
  else if name = "nan" then some Binary64.nan
  else mantissa? negative cs

end Reading

/-- Read an integer in base 2, 8, 10 or 16. -/
def readInt (base : Nat) (text : String) : Except NumberError Int :=
  Reading.integer base text

/-- Read a decimal number. -/
def readDecimal (text : String) : Except NumberError Binary64 :=
  match Reading.decimal? text.toList with
  | some x => .ok x
  | none => .error (.notADecimal text)

/-- The decimal text of an integer, up to the limit of digits. -/
def writeInt (n : Int) : Except NumberError String :=
  if n.natAbs < Nat.pow 10 digitLimit then .ok (toString n) else .error .tooLongToWrite

end Schematic
