import Schematic.Number.Binary64

/-!
# Shortest decimal text

A finite number is written with the fewest decimal digits that read back as the same number, and
of those the nearest. `Shortest.digits` tries one digit after the other: on each decimal grid it
tests the two neighbours of the number against the interval of reals that round to it.

## Main definitions

- `Shortest.digits` — digits and decimal exponent
- `DecimalFormat` — where positional notation ends, and the other decisions of the written form
- `Binary64.text` — the written form of labels and keys
-/

namespace Schematic

namespace Shortest

/-- Four times the ends of the interval of reals that round to a finite number, and the number
itself, over a common denominator: `(low, value, high, den)`. The lower end is nearer where the
exponent changes. -/
def interval (x : Binary64) : Nat × Nat × Nat × Nat :=
  let m := x.significand
  let below := if m = Nat.pow 2 52 && 1 < x.exponentField then 1 else 2
  let e := x.exponent - 2
  if 0 ≤ e then
    let unit := Nat.pow 2 e.toNat
    ((4 * m - below) * unit, 4 * m * unit, (4 * m + 2) * unit, 1)
  else (4 * m - below, 4 * m, 4 * m + 2, Nat.pow 2 (-e).toNat)

/-- The least `k` from `start` on with `den ≤ num · 10 ^ k`. -/
def leadingZeros (num den : Nat) : Nat → Nat → Nat
  | 0, k => k
  | fuel + 1, k => if den ≤ num * Nat.pow 10 k then k else leadingZeros num den fuel (k + 1)

/-- The decimal exponent of the first digit of a positive ratio of doubles. -/
def firstExponent (num den : Nat) : Int :=
  if den ≤ num then ((Nat.toDigits 10 (num / den)).length : Int) - 1
  else -(leadingZeros num den 400 1 : Nat)

/-- A neighbour of the number on the grid of `10 ^ grid`, if it reads back: the nearer of the two
comes first, an exact tie goes to the even one. -/
def onGrid? (x : Binary64) (grid : Int) : Option Nat :=
  let (low, value, high, den) := interval x
  let (up, down) := if 0 ≤ grid then (1, Nat.pow 10 grid.toNat) else (Nat.pow 10 (-grid).toNat, 1)
  -- A grid point `n` stands for `n · down / up`.
  let num := value * up
  let unit := den * down
  let floor := num / unit
  let inside (n : Nat) : Bool :=
    let point := n * unit
    if x.significand % 2 = 0 then low * up ≤ point && point ≤ high * up
    else low * up < point && point < high * up
  let nearest := Binary64.roundQuotient num unit
  let other := if nearest = floor then floor + 1 else floor
  if inside nearest then some nearest else if inside other then some other else none

/-- The first grid with a hit, from `count` digits on; seventeen digits always hit. -/
def search (x : Binary64) (first : Int) : Nat → Nat → Nat × Int
  | 0, _ => (0, 0)
  | fuel + 1, count =>
    let grid := first - (count - 1 : Nat)
    match onGrid? x grid with
    | some n => (n, grid)
    | none => search x first fuel (count + 1)

/-- Digits and the decimal exponent of the last of them, for a finite number other than zero. -/
def digits (x : Binary64) : Nat × Int :=
  let (num, den) := x.magnitude
  search x (firstExponent num den) 17 1

end Shortest

/-- How digits and exponent become text. -/
structure DecimalFormat where
  /-- The least exponent of the first digit that is written positionally. -/
  positionalFrom : Int
  /-- The least exponent of the first digit that is written with an exponent again. -/
  scientificFrom : Int
  /-- Digits that an exponent has at least. -/
  exponentDigits : Nat

namespace DecimalFormat

/-- The digits of a number, padded on the left with zeros. -/
def padded (width n : Nat) : List Char :=
  let ds := Nat.toDigits 10 n
  List.replicate (width - ds.length) '0' ++ ds

/-- Write digits whose first stands at the decimal exponent `first`. -/
def write (format : DecimalFormat) (ds : List Char) (first : Int) : List Char :=
  if first < format.positionalFrom || format.scientificFrom ≤ first then
    let mantissa :=
      match ds with
      | d :: e :: rest => d :: '.' :: e :: rest
      | ds => ds
    let sign := if first < 0 then '-' else '+'
    mantissa ++ 'e' :: sign :: padded format.exponentDigits first.natAbs
  else if first < 0 then
    '0' :: '.' :: List.replicate (first.natAbs - 1) '0' ++ ds
  else
    let whole := first.toNat + 1
    if ds.length ≤ whole then ds ++ List.replicate (whole - ds.length) '0' ++ ['.', '0']
    else ds.take whole ++ '.' :: ds.drop whole

/-- Positional from `0.0001` up to sixteen digits before the point, and an exponent of two or
more digits elsewhere. -/
def standard : DecimalFormat :=
  ⟨-4, 16, 2⟩

end DecimalFormat

/-- Drop the zeros at the end of the digits and count them. -/
def Shortest.trimZeros (ds : List Char) : List Char :=
  (ds.reverse.dropWhile (· == '0')).reverse

/-- The written form of a number: the shortest digits that read back. -/
def Binary64.text (x : Binary64) : String :=
  if x.isNaN then "nan"
  else
    let sign := if x.isNegative then ['-'] else []
    let body :=
      if x.isInfinite then "inf".toList
      else if x.isZero then "0.0".toList
      else
        let (n, last) := Shortest.digits x
        let ds := Nat.toDigits 10 n
        DecimalFormat.standard.write (Shortest.trimZeros ds) (last + ds.length - 1)
    String.ofList (sign ++ body)

end Schematic
