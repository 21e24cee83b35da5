/-!
# Decimal digits

The decimal digits of all scripts (general category `Nd`). In every script the ten digits are
consecutive, so the table holds the position of each zero.

## Main definitions

- `zeros` — the digit zero of each script
- `digitValue?` — the value of a decimal digit of any script
- `hexDigitValue?` — the value of an ASCII hexadecimal digit
-/

namespace Schematic.Text

/-- Code points of the digit zero outside ASCII, one per script, ascending. -/
def zeros : Array Nat := #[
  0x660, 0x6F0, 0x7C0, 0x966, 0x9E6, 0xA66, 0xAE6, 0xB66, 0xBE6, 0xC66, 0xCE6, 0xD66, 0xDE6,
  0xE50, 0xED0, 0xF20, 0x1040, 0x1090, 0x17E0, 0x1810, 0x1946, 0x19D0, 0x1A80, 0x1A90, 0x1B50,
  0x1BB0, 0x1C40, 0x1C50, 0xA620, 0xA8D0, 0xA900, 0xA9D0, 0xA9F0, 0xAA50, 0xABF0, 0xFF10,
  0x104A0, 0x10D30, 0x11066, 0x110F0, 0x11136, 0x111D0, 0x112F0, 0x11450, 0x114D0, 0x11650,
  0x116C0, 0x11730, 0x118E0, 0x11950, 0x11C50, 0x11D50, 0x11DA0, 0x16A60, 0x16AC0, 0x16B50,
  0x1D7CE, 0x1D7D8, 0x1D7E2, 0x1D7EC, 0x1D7F6, 0x1E140, 0x1E2F0, 0x1E950, 0x1FBF0]

/-- The value of a decimal digit of any script. -/
def digitValue? (c : Char) : Option Nat :=
  let n := c.toNat
  if n < 0x80 then
    if c.isDigit then some (n - 0x30) else none
  else
    (zeros.find? fun base => base ≤ n && n < base + 10).map (n - ·)

/-- The value of a hexadecimal digit, ASCII only. -/
def hexDigitValue? (c : Char) : Option Nat :=
  if c.isDigit then some (c.toNat - 0x30)
  else if 'a' ≤ c && c ≤ 'f' then some (c.toNat - 0x61 + 10)
  else if 'A' ≤ c && c ≤ 'F' then some (c.toNat - 0x41 + 10)
  else none

/-- The number that hexadecimal digits stand for. -/
def hexValue? (cs : List Char) : Option Nat :=
  cs.foldl (fun n c => do return (← n) * 16 + (← hexDigitValue? c)) (some 0)

/-- A decimal digit of any script. -/
def isDecimalDigit (c : Char) : Bool :=
  (digitValue? c).isSome

/-- Among ASCII characters the decimal digits are core's digits. -/
theorem isDecimalDigit_of_ascii {c : Char} (h : c.toNat < 0x80) :
    isDecimalDigit c = c.isDigit := by
  unfold isDecimalDigit digitValue?
  simp only [h, if_true]
  cases c.isDigit <;> rfl

end Schematic.Text
