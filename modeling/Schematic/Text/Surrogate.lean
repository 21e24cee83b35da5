/-!
# Characters of escaped code points

An escape names a code point by its number. Numbers of surrogates are no characters: two of them
in a row, a high one and a low one, stand for one character.

A text is a list of characters here, so a surrogate that stands alone has no place in it, and all
of them are read as one replacement character. Keys or strings that differ in nothing but lone
surrogates are the same once they are read.

## Main definitions

- `charOfCode` — the character of a code point
- `charOfPair` — the character of a surrogate pair
-/

namespace Schematic.Text

def isHighSurrogate (n : Nat) : Bool :=
  0xD800 ≤ n && n < 0xDC00

def isLowSurrogate (n : Nat) : Bool :=
  0xDC00 ≤ n && n < 0xE000

/-- The character of a code point. A surrogate that stands alone has none: whichever it is, the
replacement character takes its place. -/
def charOfCode (n : Nat) : Char :=
  if isHighSurrogate n || isLowSurrogate n then '\uFFFD' else Char.ofNat n

/-- The character of a surrogate pair. -/
def charOfPair (high low : Nat) : Char :=
  Char.ofNat (0x10000 + (high - 0xD800) * 0x400 + (low - 0xDC00))

end Schematic.Text
