/-!
# Binary floating-point numbers

Double-precision numbers as bit patterns, with exact decoding and correctly rounded construction
from ratios and decimals. All arithmetic is on natural numbers, so every value computes.

## Main definitions

- `Binary64` — a number, by its bits
- `significand`, `exponent` — a finite number is `± significand · 2 ^ exponent`
- `ofRatio`, `ofDecimal` — the number nearest to a ratio or decimal, ties to even
- `truncate?` — the integer part of a finite number
-/

namespace Schematic

/-- A double-precision number by its bit pattern. -/
structure Binary64 where
  /-- Sign, eleven exponent bits and fifty-two fraction bits. -/
  bits : UInt64
deriving DecidableEq, Repr

namespace Binary64

/-! ## Reading the bits -/

/-- The exponent field, from 0 to 2047. -/
def exponentField (x : Binary64) : Nat :=
  x.bits.toNat / Nat.pow 2 52 % Nat.pow 2 11

/-- The fraction field. -/
def fractionField (x : Binary64) : Nat :=
  x.bits.toNat % Nat.pow 2 52

/-- The sign bit. -/
def isNegative (x : Binary64) : Bool :=
  x.bits.toNat / Nat.pow 2 63 == 1

def isNaN (x : Binary64) : Bool :=
  x.exponentField == 2047 && x.fractionField != 0

def isInfinite (x : Binary64) : Bool :=
  x.exponentField == 2047 && x.fractionField == 0

def isFinite (x : Binary64) : Bool :=
  x.exponentField != 2047

/-- Positive or negative zero. -/
def isZero (x : Binary64) : Bool :=
  x.exponentField == 0 && x.fractionField == 0

/-- The integer significand of a finite number. -/
def significand (x : Binary64) : Nat :=
  if x.exponentField = 0 then x.fractionField else x.fractionField + Nat.pow 2 52

/-- The binary exponent that goes with `significand`. -/
def exponent (x : Binary64) : Int :=
  if x.exponentField = 0 then -1074 else x.exponentField - 1075

/-! ## Building numbers -/

/-- A number from its sign, exponent field and fraction field. -/
def ofFields (negative : Bool) (exponentField fractionField : Nat) : Binary64 :=
  let sign := if negative then Nat.pow 2 63 else 0
  ⟨UInt64.ofNat (sign + exponentField * Nat.pow 2 52 + fractionField)⟩

def nan : Binary64 :=
  ofFields false 2047 (Nat.pow 2 51)

def infinity (negative : Bool) : Binary64 :=
  ofFields negative 2047 0

def zero (negative : Bool) : Binary64 :=
  ofFields negative 0 0

/-- The integer nearest to `n / d`, ties to even. -/
def roundQuotient (n d : Nat) : Nat :=
  let q := n / d
  let r := n % d
  if 2 * r < d then q
  else if d < 2 * r then q + 1
  else if q % 2 = 0 then q else q + 1

/-- The number nearest to `± num / den`, ties to even, for a positive denominator. -/
def ofRatio (negative : Bool) (num den : Nat) : Binary64 :=
  if num = 0 then zero negative
  else
    let scale := (num.log2 : Int) - den.log2 - 53
    -- The quotient lies between 2 ^ 52 and 2 ^ 54 units of `scale`; one more may be needed.
    let wide :=
      if 0 ≤ scale then den * Nat.pow 2 (scale.toNat + 53) ≤ num
      else den * Nat.pow 2 53 ≤ num * Nat.pow 2 (-scale).toNat
    let exponent := max (if wide then scale + 1 else scale) (-1074)
    let m :=
      if 0 ≤ exponent then roundQuotient num (den * Nat.pow 2 exponent.toNat)
      else roundQuotient (num * Nat.pow 2 (-exponent).toNat) den
    let (m, exponent) := if m = Nat.pow 2 53 then (Nat.pow 2 52, exponent + 1) else (m, exponent)
    if m < Nat.pow 2 52 then ofFields negative 0 m
    else if 971 < exponent then infinity negative
    else ofFields negative (exponent + 1075).toNat (m - Nat.pow 2 52)

/-- The number nearest to `± digits · 10 ^ exponent`, ties to even. Exponents that are out of
range whatever the digits are not expanded. -/
def ofDecimal (negative : Bool) (digits : Nat) (exponent : Int) : Binary64 :=
  if digits = 0 then zero negative
  else if 400 < exponent then infinity negative
  else if (digits.log2 : Int) + 1 + exponent < -400 then zero negative
  else if 0 ≤ exponent then ofRatio negative (digits * Nat.pow 10 exponent.toNat) 1
  else ofRatio negative digits (Nat.pow 10 (-exponent).toNat)

/-! ## Views -/

/-- The magnitude of a finite number as a ratio with a positive denominator. -/
def magnitude (x : Binary64) : Nat × Nat :=
  if 0 ≤ x.exponent then (x.significand * Nat.pow 2 x.exponent.toNat, 1)
  else (x.significand, Nat.pow 2 (-x.exponent).toNat)

/-- The integer part of a finite number. -/
def truncate? (x : Binary64) : Option Int :=
  if x.isFinite then
    let (num, den) := x.magnitude
    let whole : Int := (num / den : Nat)
    some (if x.isNegative then -whole else whole)
  else none

/-- The integer that a number equals, if it is one. -/
def toInt? (x : Binary64) : Option Int :=
  if x.isFinite && x.magnitude.1 % x.magnitude.2 == 0 then x.truncate? else none

/-- Numeric equality: zeros are equal whatever their sign, and NaN equals nothing. -/
def eqv (x y : Binary64) : Bool :=
  !x.isNaN && !y.isNaN && (x == y || x.isZero && y.isZero)

end Binary64

end Schematic
