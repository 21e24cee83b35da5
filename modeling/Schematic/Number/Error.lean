import Schematic.Text.Quoted

/-!
# Errors of numbers and text

A number that cannot be read from a text, or that has more decimal digits than are ever written
or read.

## Main definitions

- `digitLimit` — the most decimal digits of an integer that has a text
- `NumberError`, `NumberError.message` — the causes and their wording
-/

namespace Schematic

/-- An integer with more decimal digits than this is neither read nor written in decimal. -/
def digitLimit : Nat := 4300

/-- Why a number has no text, or a text no number. -/
inductive NumberError where
  /-- Decimal text with more digits than the limit. -/
  | tooManyDigits (count : Nat)
  /-- An integer whose text would have more digits than the limit. -/
  | tooLongToWrite
  /-- Text that is no integer in the given base. -/
  | notAnInteger (text : String) (base : Nat)
  /-- Text that is no decimal number. -/
  | notADecimal (text : String)
deriving DecidableEq, Repr

namespace NumberError

/-- An integer text is shown up to this many characters of its quoted form. -/
def shownLength : Nat := 200

def message : NumberError → String
  | tooManyDigits count =>
    s!"Exceeds the limit ({digitLimit} digits) for integer string conversion: value has " ++
      s!"{count} digits; use sys.set_int_max_str_digits() to increase the limit"
  | tooLongToWrite =>
    s!"Exceeds the limit ({digitLimit} digits) for integer string conversion; use " ++
      "sys.set_int_max_str_digits() to increase the limit"
  | notAnInteger text base =>
    let shown := String.ofList ((Text.quoted text).toList.take shownLength)
    s!"invalid literal for int() with base {base}: {shown}"
  | notADecimal text => s!"could not convert string to float: {Text.quoted text}"

end NumberError

end Schematic
