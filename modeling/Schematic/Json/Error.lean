import Schematic.Number.Error

/-!
# Errors of JSON text

## Main definitions

- `Json.Cause` — what is wrong at a place
- `Json.SyntaxError` — a cause with its place, counted in characters
- `Json.ReadError` — every way in which reading fails
- `Json.WriteError` — why a tree has no JSON text
-/

namespace Schematic.Json

/-- What is wrong at a place of a JSON text. -/
inductive Cause where
  | byteOrderMark
  | valueExpected
  | keyExpected
  | colonExpected
  | commaExpected
  | extraData
  | unterminatedString
  | controlCharacter
  | invalidEscape
  | invalidHexEscape
deriving DecidableEq, Repr

def Cause.message : Cause → String
  | byteOrderMark => "Unexpected UTF-8 BOM (decode using utf-8-sig)"
  | valueExpected => "Expecting value"
  | keyExpected => "Expecting property name enclosed in double quotes"
  | colonExpected => "Expecting ':' delimiter"
  | commaExpected => "Expecting ',' delimiter"
  | extraData => "Extra data"
  | unterminatedString => "Unterminated string starting at"
  | controlCharacter => "Invalid control character at"
  | invalidEscape => "Invalid \\escape"
  | invalidHexEscape => "Invalid \\uXXXX escape"

/-- A cause at a place. Lines and columns count from one, the offset from zero. -/
structure SyntaxError where
  cause : Cause
  line : Nat
  column : Nat
  offset : Nat
deriving DecidableEq, Repr

namespace SyntaxError

/-- Line and column of an offset; only a line feed ends a line. -/
def position : List Char → Nat → Nat × Nat
  | _, 0 => (1, 1)
  | [], _ + 1 => (1, 1)
  | c :: cs, offset + 1 =>
    let (line, column) := position cs offset
    if c = '\n' then (line + 1, column)
    else if line = 1 then (1, column + 1) else (line, column)

/-- A cause at an offset of a text. -/
def locate (text : List Char) (cause : Cause) (offset : Nat) : SyntaxError :=
  let (line, column) := position text offset
  ⟨cause, line, column, offset⟩

def message (e : SyntaxError) : String :=
  s!"{e.cause.message}: line {e.line} column {e.column} (char {e.offset})"

end SyntaxError

/-- Why a JSON text has no value. -/
inductive ReadError where
  | malformed (error : SyntaxError)
  /-- Lists and mappings are nested more deeply than there is room for. -/
  | tooDeep
  /-- A number has no value. -/
  | number (error : NumberError)
deriving DecidableEq, Repr

/-- Why a tree has no JSON text. -/
inductive WriteError where
  /-- Lists and mappings are nested more deeply than there is room for. -/
  | tooDeep
  /-- A number has no text. -/
  | number (error : NumberError)
deriving DecidableEq, Repr

def WriteError.message : WriteError → String
  | tooDeep => "maximum recursion depth exceeded while encoding a JSON object"
  | number e => e.message

end Schematic.Json
