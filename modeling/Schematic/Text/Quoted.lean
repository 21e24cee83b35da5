import Schematic.Text.Printable

/-!
# Quoted text

The written form of a text inside a list or mapping, and of a byte string. Quotes are single
unless the text holds single quotes and no double ones. Backslash, the quote and characters that
are not printable are escaped, the latter by two, four or eight hexadecimal digits.

## Main definitions

- `hex` — hexadecimal digits of a fixed width
- `quoted` — a quoted text
- `quotedBytes` — a quoted byte string
-/

namespace Schematic.Text

/-- The lowest `width` hexadecimal digits of a number. -/
def hex : Nat → Nat → List Char
  | 0, _ => []
  | width + 1, n => hex width (n / 16) ++ [Nat.digitChar (n % 16)]

/-- The quote that encloses a text: single, unless the text holds only double-free singles. -/
def quoteFor (cs : List Char) : Char :=
  if cs.contains '\'' && !cs.contains '"' then '"' else '\''

/-- A character as it stands between quotes. -/
def quotedChar (quote c : Char) : List Char :=
  if c = quote || c = '\\' then ['\\', c]
  else if c = '\t' then ['\\', 't']
  else if c = '\n' then ['\\', 'n']
  else if c = '\r' then ['\\', 'r']
  else if isPrintable c then [c]
  else
    let n := c.toNat
    if n < 0x100 then '\\' :: 'x' :: hex 2 n
    else if n < 0x10000 then '\\' :: 'u' :: hex 4 n
    else '\\' :: 'U' :: hex 8 n

/-- A text between quotes, on one line and with printable characters only. -/
def quoted (s : String) : String :=
  let cs := s.toList
  let quote := quoteFor cs
  String.ofList (quote :: cs.flatMap (quotedChar quote) ++ [quote])

/-- A single character between quotes. -/
def quotedOne (c : Char) : String :=
  quoted (String.singleton c)

/-- A byte as it stands between quotes. -/
def quotedByte (quote : Char) (b : UInt8) : List Char :=
  let c := Char.ofNat b.toNat
  if b.toNat < 0x80 then quotedChar quote c else '\\' :: 'x' :: hex 2 b.toNat

/-- A byte string between quotes. -/
def quotedBytes (bytes : List UInt8) : String :=
  let quote := quoteFor (bytes.map fun b => Char.ofNat b.toNat)
  String.ofList ('b' :: quote :: bytes.flatMap (quotedByte quote) ++ [quote])

end Schematic.Text
