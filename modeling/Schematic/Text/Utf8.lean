import Schematic.Text.Quoted

/-!
# Bytes that are not UTF-8

A byte string is read from the front: a lead byte says how many bytes of a character follow it and
in which range the first of them lies. The first run of bytes that breaks this is reported.

## Main definitions

- `Utf8.Flaw` — where a byte string stops being UTF-8, and why
- `Utf8.flaw?` — the first flaw of a byte string
-/

namespace Schematic.Text.Utf8

/-- What is wrong with a run of bytes. -/
inductive Reason where
  | invalidStart
  | invalidContinuation
  | unexpectedEnd
deriving DecidableEq, Repr

def Reason.message : Reason → String
  | invalidStart => "invalid start byte"
  | invalidContinuation => "invalid continuation byte"
  | unexpectedEnd => "unexpected end of data"

/-- A run of bytes that is not UTF-8. -/
structure Flaw where
  /-- The first byte of the run. -/
  byte : Nat
  position : Nat
  length : Nat
  reason : Reason
deriving DecidableEq, Repr

def Flaw.message (flaw : Flaw) : String :=
  let run :=
    if flaw.length = 1 then
      s!"byte 0x{String.ofList (hex 2 flaw.byte)} in position {flaw.position}"
    else s!"bytes in position {flaw.position}-{flaw.position + flaw.length - 1}"
  s!"'utf-8' codec can't decode {run}: {flaw.reason.message}"

/-- For a lead byte, how many bytes follow it and the range of the first of them. -/
def continuation? (lead : Nat) : Option (Nat × Nat × Nat) :=
  if lead < 0x80 then some (0, 0x80, 0xBF)
  else if lead < 0xC2 then none
  else if lead < 0xE0 then some (1, 0x80, 0xBF)
  else if lead = 0xE0 then some (2, 0xA0, 0xBF)
  else if lead = 0xED then some (2, 0x80, 0x9F)
  else if lead < 0xF0 then some (2, 0x80, 0xBF)
  else if lead = 0xF0 then some (3, 0x90, 0xBF)
  else if lead < 0xF4 then some (3, 0x80, 0xBF)
  else if lead = 0xF4 then some (3, 0x80, 0x8F)
  else none

/-- The first flaw of the bytes from a position on, when the character that begins at `start` with
the byte `lead` still lacks `missing` bytes, the next of them between `low` and `high`. -/
def flawFrom? (start lead position : Nat) : Nat → Nat → Nat → List Nat → Option Flaw
  | 0, _, _, [] => none
  | missing + 1, low, high, b :: rest =>
    if low ≤ b && b ≤ high then flawFrom? start lead (position + 1) missing 0x80 0xBF rest
    else some ⟨lead, start, position - start, .invalidContinuation⟩
  | _ + 1, _, _, [] => some ⟨lead, start, position - start, .unexpectedEnd⟩
  | 0, _, _, b :: rest =>
    match continuation? b with
    | some (missing, low, high) => flawFrom? position b (position + 1) missing low high rest
    | none => some ⟨b, position, 1, .invalidStart⟩

/-- The first flaw of a byte string. -/
def flaw? (bytes : List Nat) : Option Flaw :=
  flawFrom? 0 0 0 0 0 0 bytes

end Schematic.Text.Utf8
