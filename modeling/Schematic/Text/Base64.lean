import Schematic.Text.Quoted

/-!
# Base64

Four characters stand for three bytes. Characters outside the alphabet are skipped, and everything
behind the padding of the last group is ignored.

## Main definitions

- `Base64.digit?` — the value of a character
- `Base64.decode` — the bytes of a text, or why there are none
-/

namespace Schematic.Text.Base64

/-- The value of a character. -/
def digit? (c : Char) : Option Nat :=
  if c.isUpper then some (c.toNat - 'A'.toNat)
  else if c.isLower then some (c.toNat - 'a'.toNat + 26)
  else if c.isDigit then some (c.toNat - '0'.toNat + 52)
  else if c = '+' then some 62
  else if c = '/' then some 63
  else none

/-- Why a text has no bytes. -/
inductive Flaw where
  /-- The last group lacks padding. -/
  | padding
  /-- The last group has one character only; `count` characters were read. -/
  | loneCharacter (count : Nat)
deriving DecidableEq, Repr

def Flaw.message : Flaw → String
  | padding => "Incorrect padding"
  | loneCharacter count =>
    s!"Invalid base64-encoded string: number of data characters ({count}) cannot be 1 more than " ++
      "a multiple of 4"

/-- The bytes of the rest of a text, `position` characters into a group whose bits so far are
`carry`, and behind `pads` padding characters. `count` bytes came before. -/
def decodeFrom (position carry pads count : Nat) : List Char → Except Flaw (List UInt8)
  | [] =>
    if position = 0 then .ok []
    else if position = 1 then .error (.loneCharacter (count / 3 * 4 + 1))
    else .error .padding
  | c :: rest =>
    if c = '=' then
      if 2 ≤ position then
        if 4 ≤ position + (pads + 1) then .ok []
        else decodeFrom position carry (pads + 1) count rest
      else decodeFrom position carry pads count rest
    else
      match digit? c with
      | none => decodeFrom position carry pads count rest
      | some d =>
        let emit (position carry byte : Nat) : Except Flaw (List UInt8) := do
          let more ← decodeFrom position carry 0 (count + 1) rest
          return UInt8.ofNat byte :: more
        match position with
        | 0 => decodeFrom 1 d 0 count rest
        | 1 => emit 2 (d % 16) (carry * 4 + d / 16)
        | 2 => emit 3 (d % 4) (carry * 16 + d / 4)
        | _ => emit 0 0 (carry * 64 + d)

/-- The bytes of a text. -/
def decode (cs : List Char) : Except Flaw (List UInt8) :=
  decodeFrom 0 0 0 0 cs

/-- Why a text that holds other characters than those of ASCII cannot be looked at. -/
def asciiFlaw? (cs : List Char) : Option String :=
  let isAscii (c : Char) : Bool := c.toNat < 0x80
  let position := (cs.takeWhile isAscii).length
  match (cs.drop position).takeWhile fun c => !isAscii c with
  | [] => none
  | [c] =>
    let n := c.toNat
    let digits :=
      if n < 0x100 then 'x' :: hex 2 n else if n < 0x10000 then 'u' :: hex 4 n
      else 'U' :: hex 8 n
    some <| s!"'ascii' codec can't encode character '\\{String.ofList digits}' in position " ++
      s!"{position}: ordinal not in range(128)"
  | run =>
    some <| "'ascii' codec can't encode characters in position " ++
      s!"{position}-{position + run.length - 1}: ordinal not in range(128)"

end Schematic.Text.Base64
