import Schematic.Text.Quoted
import Schematic.Yaml.Error

/-!
# Dates and times

A date, perhaps with a time of day and an offset from universal time.

## Main definitions

- `Timestamp`, `Timestamp.ofChars?` — the parts of a written date
- `Timestamp.check` — whether there is such a day and such a time
- `Timestamp.text` — the written form in which all digits are present
-/

namespace Schematic.Yaml

/-- A time of day. -/
structure ClockTime where
  hour : Nat
  minute : Nat
  second : Nat
  microsecond : Nat
  /-- The sign, hours and minutes of the offset from universal time. -/
  offset? : Option (Bool × Nat × Nat)
deriving DecidableEq, Repr

/-- A date, perhaps with a time of day. -/
structure Timestamp where
  year : Nat
  month : Nat
  day : Nat
  time? : Option ClockTime
deriving DecidableEq, Repr

namespace Timestamp

/-! ## Reading -/

/-- The number that ASCII digits stand for. -/
def ofDigits (ds : List Char) : Nat :=
  ds.foldl (fun n d => n * 10 + (d.toNat - '0'.toNat)) 0

/-- A number of at least `least` and at most `most` digits at the front of a text. -/
def digits? (least most : Nat) (cs : List Char) : Option (Nat × List Char) :=
  let ds := (cs.take most).takeWhile Char.isDigit
  if least ≤ ds.length then some (ofDigits ds, cs.drop ds.length) else none

/-- A character at the front of a text. -/
def mark? (c : Char) (cs : List Char) : Option (List Char) :=
  match cs with
  | [] => none
  | d :: rest => if d = c then some rest else none

/-- Blanks and tabs. -/
def skipBlanks (cs : List Char) : List Char :=
  cs.dropWhile fun c => c == ' ' || c == '\t'

/-- Microseconds of the digits behind a point; the seventh digit rounds. -/
def microseconds (ds : List Char) : Nat :=
  let n := ofDigits ((ds ++ List.replicate 6 '0').take 6)
  match ds.drop 6 with
  | d :: _ => if '4' < d then min (n + 1) 999999 else n
  | [] => n

/-- The offset that is all that is left of a text, if there is any. -/
def offset? (cs : List Char) : Option (Option (Bool × Nat × Nat)) :=
  match cs with
  | [] => some none
  | cs =>
    match skipBlanks cs with
    | [] => some none
    | ['Z'] => some (some (false, 0, 0))
    | sign :: rest =>
      if sign = '+' || sign = '-' then do
        let (hours, rest) ← digits? 1 2 rest
        if rest.isEmpty then return some (sign == '-', hours, 0)
        let (minutes, rest) ← digits? 2 2 (← mark? ':' rest)
        if rest.isEmpty then return some (sign == '-', hours, minutes) else none
      else none

/-- The time of day that is all that is left of a text. -/
def clockTime? (cs : List Char) : Option ClockTime := do
  let (hour, rest) ← digits? 1 2 cs
  let (minute, rest) ← digits? 2 2 (← mark? ':' rest)
  let (second, rest) ← digits? 2 2 (← mark? ':' rest)
  let (fraction, rest) :=
    match rest with
    | '.' :: rest => (rest.takeWhile Char.isDigit, rest.dropWhile Char.isDigit)
    | rest => ([], rest)
  return ⟨hour, minute, second, microseconds fraction, ← offset? rest⟩

/-- The text of the time of day, behind a letter or blanks. -/
def timePart? (cs : List Char) : Option (List Char) :=
  match cs with
  | 'T' :: rest => some rest
  | 't' :: rest => some rest
  | c :: rest => if c == ' ' || c == '\t' then some (skipBlanks rest) else none
  | [] => none

/-- The parts of a written date. -/
def ofChars? (cs : List Char) : Option Timestamp := do
  let (year, rest) ← digits? 4 4 cs
  let (month, rest) ← digits? 1 2 (← mark? '-' rest)
  let (day, rest) ← digits? 1 2 (← mark? '-' rest)
  if rest.isEmpty then return ⟨year, month, day, none⟩
  return ⟨year, month, day, ← clockTime? (← timePart? rest)⟩

/-- Whether a text is a date without being said to be one: all digits of a date without a time
must be there. -/
def isPlain (cs : List Char) : Bool :=
  match ofChars? cs with
  | some t => t.time?.isSome || cs.length == 10
  | none => false

/-! ## Checking -/

def isLeapYear (year : Nat) : Bool :=
  year % 4 == 0 && (year % 100 != 0 || year % 400 == 0)

/-- The number of days of a month. -/
def daysInMonth (year month : Nat) : Nat :=
  if month = 2 then if isLeapYear year then 29 else 28
  else if [4, 6, 9, 11].contains month then 30
  else 31

/-- Seconds of a day. -/
def daySeconds : Int := 24 * 60 * 60

/-- How an offset of a day or more is shown. -/
def shownOffset (negative : Bool) (hours minutes : Nat) : String :=
  let total : Int := (hours * 60 + minutes) * 60
  let seconds := if negative then -total else total
  let days := seconds.fdiv daySeconds
  let rest := seconds.fmod daySeconds
  if rest = 0 then s!"datetime.timedelta(days={days})"
  else s!"datetime.timedelta(days={days}, seconds={rest})"

/-- Whether there is such a day. -/
def checkDate (t : Timestamp) : Except DateFault Unit :=
  if t.year = 0 then .error (.year t.year)
  else if t.month = 0 || 12 < t.month then .error .month
  else if t.day = 0 || daysInMonth t.year t.month < t.day then .error .day
  else .ok ()

/-- Whether there is such an offset. -/
def checkOffset (time : ClockTime) : Except DateFault Unit :=
  match time.offset? with
  | some (negative, hours, minutes) =>
    if 24 * 60 ≤ hours * 60 + minutes then .error (.offset (shownOffset negative hours minutes))
    else .ok ()
  | none => .ok ()

/-- Whether there is such a day and such a time. -/
def check (t : Timestamp) : Except DateFault Unit := do
  match t.time? with
  | none => t.checkDate
  | some time =>
    -- An offset that does not exist is told before a day or a time that does not.
    checkOffset time
    t.checkDate
    if 23 < time.hour then throw .hour
    if 59 < time.minute then throw .minute
    if 59 < time.second then throw .second

/-! ## Writing -/

/-- A number with leading zeros. -/
def padded (width n : Nat) : String :=
  let ds := Nat.toDigits 10 n
  String.ofList (List.replicate (width - ds.length) '0' ++ ds)

/-- The offset as it is written behind a time; hours and minutes are normal. -/
def offsetText : Option (Bool × Nat × Nat) → String
  | none => ""
  | some (negative, hours, minutes) =>
    let total := hours * 60 + minutes
    let sign := if negative && total != 0 then "-" else "+"
    s!"{sign}{padded 2 (total / 60)}:{padded 2 (total % 60)}"

/-- The time of day as it is written. -/
def timeText (time : ClockTime) : String :=
  let fraction := if time.microsecond = 0 then "" else s!".{padded 6 time.microsecond}"
  s!"{padded 2 time.hour}:{padded 2 time.minute}:{padded 2 time.second}{fraction}" ++
    offsetText time.offset?

/-- The written form, with something between date and time. -/
def text (t : Timestamp) (between : String) : String :=
  let date := s!"{padded 4 t.year}-{padded 2 t.month}-{padded 2 t.day}"
  match t.time? with
  | none => date
  | some time => date ++ between ++ timeText time

end Timestamp

end Schematic.Yaml
