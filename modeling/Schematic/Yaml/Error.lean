import Schematic.Number.Error
import Schematic.Text.Search
import Schematic.Text.Utf8
import Schematic.Yaml.Mark

/-!
# Errors of YAML text

An error of the text tells what was being read and since where, what is wrong and where. Apart
from these there are texts with characters that YAML does not know, texts that are nested too
deeply, and scalars whose value does not exist, such as the thirteenth month of a year.

## Main definitions

- `Activity`, `Cause` — what was being read, and what is wrong
- `SyntaxError`, `SyntaxError.message` — both with their places
- `Fault` — a scalar or key without a value
- `ReadError` — every way in which reading fails
-/

namespace Schematic.Yaml

/-! ## Errors with a place -/

/-- What a name is read for. -/
inductive NameKind where
  | anchor
  /-- The name is an alias for an anchor. -/
  | reference
deriving DecidableEq, Repr

def NameKind.text : NameKind → String
  | anchor => "anchor"
  | reference => "alias"

/-- What the handle and address of a tag are read for. -/
inductive TagUse where
  | tag
  | directive
deriving DecidableEq, Repr

def TagUse.text : TagUse → String
  | tag => "tag"
  | directive => "directive"

/-- The shapes of nodes. -/
inductive Shape where
  | scalar
  | sequence
  | mapping
deriving DecidableEq, Repr

def Shape.text : Shape → String
  | scalar => "scalar"
  | sequence => "sequence"
  | mapping => "mapping"

/-- What was being read when an error was found. -/
inductive Activity where
  | nextToken
  | simpleKey
  | directive
  | name (kind : NameKind)
  | tag
  | tagHandle (use : TagUse)
  | tagAddress (use : TagUse)
  | closedTag
  | quoted
  | doubleQuoted
  | block
  /-- A line of a block scalar is indented more than the first. -/
  | indentedBlock
  | node
  | content (inBlock : Bool)
  | blockList
  | blockMapping
  | flowList
  | flowMapping
  /-- More than one document where one is expected. -/
  | singleDocument
  | mapping
  | set
  | orderedMapping
  | pairs
deriving DecidableEq, Repr

def Activity.text : Activity → String
  | nextToken => "while scanning for the next token"
  | simpleKey => "while scanning a simple key"
  | directive => "while scanning a directive"
  | name kind => s!"while scanning an {kind.text}"
  | tag => "while scanning a tag"
  | tagHandle use => s!"while scanning an {use.text}"
  | tagAddress use => s!"while parsing an {use.text}"
  | closedTag => "while parsing a tag"
  | quoted => "while scanning a quoted scalar"
  | doubleQuoted => "while scanning a double-quoted scalar"
  | block => "while scanning a block scalar"
  | indentedBlock => "more indented follow up line than first in a block scalar"
  | node => "while parsing a node"
  | content true => "while parsing a block node"
  | content false => "while parsing a flow node"
  | blockList => "while parsing a block collection"
  | blockMapping => "while parsing a block mapping"
  | flowList => "while parsing a flow sequence"
  | flowMapping => "while parsing a flow mapping"
  | singleDocument => "expected a single document in the stream"
  | mapping => "while constructing a mapping"
  | set => "while constructing a set"
  | orderedMapping => "while constructing an ordered map"
  | pairs => "while constructing pairs"

/-- What is wrong. Characters and names are those that were found. -/
inductive Cause where
  | cannotStartToken (c : Char)
  | colonMissing
  | entryNotAllowed
  | keyNotAllowed
  | valueNotAllowed
  | nameExpected (found : Char)
  | digitExpected (found : Char)
  | digitOrExpected (mark found : Char)
  | expected (mark found : Char)
  | addressExpected (found : Char)
  | addressEscape (found : Char)
  | addressBytes (flaw : Text.Utf8.Flaw)
  | lineEndExpected (found : Char)
  | escapeDigits (count : Nat) (found : Char)
  | unknownEscape (found : Char)
  | endInScalar
  | separatorInScalar
  | indicatorExpected (found : Char)
  | zeroIndentation
  | documentStartExpected (token : String)
  | contentAfterEnd (token : String)
  | repeatedVersion
  | wrongVersion
  | repeatedHandle (handle : String)
  | undefinedHandle (handle : String)
  | contentExpected (token : String)
  | blockEndExpected (token : String)
  | listEndExpected (token : String)
  | mappingEndExpected (token : String)
  | undefinedAlias (name : String)
  | anotherDocument
  | shapeExpected (expected found : Shape)
  | unknownTag (tag : String)
  | repeatedKey (key value former : String)
  | repeatedMerge
  | repeatedMember (key : String)
  | unhashableKey
  | notMergeable (found : Shape)
  | notMergeableItem (found : Shape)
  | badTimestamp (text : String)
  | notAscii (reason : String)
  | badBase64 (reason : String)
  | listExpected (found : Shape)
  | entryExpected (found : Shape)
  | oneEntryExpected (count : Nat)
deriving DecidableEq, Repr

namespace Cause

def text : Cause → String
  | cannotStartToken c => s!"found character {Text.quotedOne c} that cannot start any token"
  | colonMissing => "could not find expected ':'"
  | entryNotAllowed => "sequence entries are not allowed here"
  | keyNotAllowed => "mapping keys are not allowed here"
  | valueNotAllowed => "mapping values are not allowed here"
  | nameExpected c => s!"expected alphabetic or numeric character, but found {Text.quotedOne c}"
  | digitExpected c => s!"expected a digit, but found {Text.quotedOne c}"
  | digitOrExpected mark c => s!"expected a digit or '{mark}', but found {Text.quotedOne c}"
  | expected mark c => s!"expected '{mark}', but found {Text.quotedOne c}"
  | addressExpected c => s!"expected URI, but found {Text.quotedOne c}"
  | addressEscape c =>
    s!"expected URI escape sequence of 2 hexdecimal numbers, but found {Text.quotedOne c}"
  | addressBytes flaw => flaw.message
  | lineEndExpected c => s!"expected a comment or a line break, but found {Text.quotedOne c}"
  | escapeDigits count c =>
    s!"expected escape sequence of {count} hexdecimal numbers, but found {Text.quotedOne c}"
  | unknownEscape c => s!"found unknown escape character {Text.quotedOne c}"
  | endInScalar => "found unexpected end of stream"
  | separatorInScalar => "found unexpected document separator"
  | indicatorExpected c =>
    s!"expected chomping or indentation indicators, but found {Text.quotedOne c}"
  | zeroIndentation => "expected indentation indicator in the range 1-9, but found 0"
  | documentStartExpected token => s!"expected '<document start>', but found ('{token}',)"
  | contentAfterEnd token =>
    s!"found non-comment content after document end marker, ('{token}',)"
  | repeatedVersion => "found duplicate YAML directive"
  | wrongVersion => "found incompatible YAML document (version 1.* is required)"
  | repeatedHandle handle => s!"duplicate tag handle {Text.quoted handle}"
  | undefinedHandle handle => s!"found undefined tag handle {Text.quoted handle}"
  | contentExpected token => s!"expected the node content, but found '{token}'"
  | blockEndExpected token => s!"expected <block end>, but found '{token}'"
  | listEndExpected token => s!"expected ',' or ']', but got '{token}'"
  | mappingEndExpected token => s!"expected ',' or '\x7d', but got '{token}'"
  | undefinedAlias name => s!"found undefined alias {Text.quoted name}"
  | anotherDocument => "but found another document"
  | shapeExpected wanted found => s!"expected a {wanted.text} node, but found {found.text}"
  | unknownTag tag => s!"could not determine a constructor for the tag {Text.quoted tag}"
  | repeatedKey key value former =>
    s!"found duplicate key \"{key}\" with value \"{value}\" (original value: \"{former}\")"
  | repeatedMerge => "found duplicate key \"<<\""
  | repeatedMember key => s!"found duplicate key \"{key}\""
  | unhashableKey => "found unhashable key"
  | notMergeable found =>
    s!"expected a mapping or list of mappings for merging, but found {found.text}"
  | notMergeableItem found => s!"expected a mapping for merging, but found {found.text}"
  | badTimestamp text => s!"failed to construct timestamp from \"{text}\""
  | notAscii reason => s!"failed to convert base64 data into ascii: {reason}"
  | badBase64 reason => s!"failed to decode base64 data: {reason}"
  | listExpected found => s!"expected a sequence, but found {found.text}"
  | entryExpected found => s!"expected a mapping of length 1, but found {found.text}"
  | oneEntryExpected count => s!"expected a single mapping item, but found {count} items"

/-- Where repeated keys are explained. -/
def repeatedKeyHelp : String :=
  "https://yaml.dev/doc/ruamel.yaml/api/#Duplicate_keys\n"

/-- What follows the place of an error. -/
def note? : Cause → Option String
  | repeatedKey _ _ _ | repeatedMember _ =>
    some s!"\nTo suppress this check see:\n    {repeatedKeyHelp}"
  | repeatedMerge => some s!"\nTo suppress this check see:\n   {repeatedKeyHelp}"
  | _ => none

end Cause

/-- An error of the text. -/
structure SyntaxError where
  activity? : Option Activity := none
  /-- Where that which was being read begins. -/
  start? : Option Mark := none
  cause? : Option Cause := none
  place? : Option Mark := none
deriving DecidableEq, Repr

namespace SyntaxError

/-- The mark of the start is left out where the error itself is at the same place. -/
def shownStart? (e : SyntaxError) : Option Mark :=
  e.start?.filter fun start =>
    match e.place? with
    | some place => start.line != place.line || start.column != place.column
    | none => true

/-- The description of an error of a text: the activity with its place, the cause with its place,
and a note. -/
def message (source : List Char) (e : SyntaxError) : String :=
  let parts := [e.activity?.map Activity.text, e.shownStart?.map (Mark.text source),
    e.cause?.map Cause.text, e.place?.map (Mark.text source), e.cause?.bind Cause.note?]
  Text.join "\n" (parts.filterMap id)

end SyntaxError

/-! ## Scalars and keys without a value -/

/-- A part of a date or time that is out of range. -/
inductive DateFault where
  | year (year : Nat)
  | month
  | day
  | hour
  | minute
  | second
  /-- An offset of a day or more, with the way it is shown. -/
  | offset (shown : String)
deriving DecidableEq, Repr

def DateFault.message : DateFault → String
  | year y => s!"year {y} is out of range"
  | month => "month must be in 1..12"
  | day => "day is out of range for month"
  | hour => "hour must be in 0..23"
  | minute => "minute must be in 0..59"
  | second => "second must be in 0..59"
  | offset shown =>
    "offset must be a timedelta strictly between -timedelta(hours=24) and " ++
      s!"timedelta(hours=24), not {shown}."

/-- Why a scalar has no value, or a mapping no key. -/
inductive Fault where
  | number (error : NumberError)
  | date (error : DateFault)
  /-- An escape beyond the last character; a large one does not fit into a machine word. -/
  | character (isLarge : Bool)
  /-- A number without digits. -/
  | emptyNumber
  /-- A decimal number with other than one exponent mark. -/
  | exponentMarks (count : Nat)
  /-- A word that is no truth value. -/
  | notABool (word : String)
  /-- A version that has no rules for plain scalars. -/
  | version (minor : Nat)
  /-- An ordered mapping with a key that occurs twice. -/
  | repeatedEntry
  /-- A key that cannot be looked up. -/
  | unhashable (isList : Bool)
deriving DecidableEq, Repr

def Fault.message : Fault → String
  | number e => e.message
  | date e => e.message
  | character false => "chr() arg not in range(0x110000)"
  | character true => "Python int too large to convert to C int"
  | emptyNumber => "string index out of range"
  | exponentMarks 0 => "not enough values to unpack (expected 2, got 1)"
  | exponentMarks _ => "too many values to unpack (expected 2)"
  | notABool word => Text.quoted word
  | version minor => s!"(1, {minor})"
  | repeatedEntry => ""
  | unhashable true => "unhashable type: 'CommentedSeq'"
  | unhashable false => "unhashable type: 'CommentedMap'"

/-! ## All errors -/

/-- Why a text has no documents. -/
inductive ReadError where
  /-- A character that no YAML text has, and its position. -/
  | unacceptable (c : Char) (position : Nat)
  | malformed (error : SyntaxError)
  /-- Nodes are nested more deeply than there is room for. -/
  | tooDeep
  | fault (error : Fault)
deriving DecidableEq, Repr

namespace ReadError

/-- Something is wrong while something that began at `start` is read. -/
def during (activity : Activity) (start : Mark) (cause : Cause) (place : Mark) : ReadError :=
  .malformed ⟨some activity, some start, some cause, some place⟩

/-- Something is wrong at a place. -/
def found (cause : Cause) (place : Mark) : ReadError :=
  .malformed ⟨none, none, some cause, some place⟩

end ReadError

end Schematic.Yaml
