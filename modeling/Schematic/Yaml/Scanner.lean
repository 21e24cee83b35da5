import Schematic.Yaml.Block
import Schematic.Yaml.Name
import Schematic.Yaml.Plain
import Schematic.Yaml.Quoted
import Schematic.Yaml.Space
import Schematic.Yaml.Tag

/-!
# Tokens of a text

The scanner walks over a text and lists its tokens. Indentation opens and closes blocks. A scalar
or collection may turn out to be a key only when the colon behind it is found: until then its place
among the tokens is pending, and the tokens for the key are inserted there afterwards.

An error ends the tokens. Those that a reader could not have seen before the error, because it
looks ahead until the next token is no pending key, are left out.

## Main definitions

- `Scanner.State` — where the scanner stands
- `Scanner.fetch` — the next token
- `Tokens`, `tokens` — the tokens of a text and the error that ends them
-/

namespace Schematic.Yaml

namespace Scanner

/-- The open flow collections. -/
inductive Bracket where
  | list
  | mapping
deriving DecidableEq, Repr

/-- A place where a key may have begun. -/
structure PendingKey where
  /-- How many flow collections are open around it. -/
  level : Nat
  /-- How many tokens stand before it. -/
  position : Nat
  /-- Whether there is an error unless it is a key. -/
  isRequired : Bool
  mark : Mark
deriving Repr

/-- Where the scanner stands. -/
structure State where
  cursor : Cursor
  /-- The minor version of the language. -/
  version : Nat := 2
  /-- The version that holds from the token after the next on. -/
  declared : Nat := 2
  /-- The version of a directive for the document that begins next. -/
  announced? : Option Nat := none
  /-- The open flow collections, the innermost first. -/
  brackets : List Bracket := []
  /-- For every open block, the first column that is indented further, the innermost first. -/
  margins : List Nat := []
  /-- Whether a key may begin here. -/
  allowsKey : Bool := true
  pending : List PendingKey := []
  /-- The tokens so far, the last first, and their number. -/
  tokens : List Token := []
  count : Nat := 0
  /-- How many tokens a reader has seen before it asked for the last one. -/
  seen : Nat := 0
  isDone : Bool := false

/-- A key further away than this is no key. -/
def keyLimit : Nat := 1024

namespace State

def inFlow (s : State) : Bool :=
  !s.brackets.isEmpty

def level (s : State) : Nat :=
  s.brackets.length

/-- The first column that is indented further than the innermost block. -/
def margin (s : State) : Nat :=
  s.margins.headD 0

/-! ## Tokens -/

def push (s : State) (kind : TokenKind) (start stop : Mark) : State :=
  { s with tokens := ⟨kind, start, stop⟩ :: s.tokens, count := s.count + 1 }

/-- Insert a token without extent behind the first `position` tokens. -/
def insert (s : State) (position : Nat) (kind : TokenKind) (mark : Mark) : State :=
  let later := s.count - position
  { s with
    tokens := s.tokens.take later ++ ⟨kind, mark, mark⟩ :: s.tokens.drop later
    count := s.count + 1 }

/-- A token of `n` characters. -/
def pushOver (s : State) (kind : TokenKind) (n : Nat) : State :=
  let after := s.cursor.skip n
  { s.push kind s.cursor.mark after.mark with cursor := after }

/-! ## Blocks -/

/-- Close the blocks that are indented further than the first `floor` columns. Flow collections
close no blocks. -/
def closeBlocks (s : State) (floor : Nat) : State :=
  if s.inFlow then s
  else
    let closed := s.margins.takeWhile (floor < ·)
    let mark := s.cursor.mark
    { s with
      margins := s.margins.drop closed.length
      tokens := List.replicate closed.length ⟨.blockEnd, mark, mark⟩ ++ s.tokens
      count := s.count + closed.length }

/-- Open a block at a place that is indented further than the innermost one; its first token
stands behind `position` others. Flow collections open no blocks. -/
def openBlock (s : State) (kind : TokenKind) (mark : Mark) (position : Nat) : State :=
  if s.inFlow || mark.column < s.margin then s
  else { s.insert position kind mark with margins := (mark.column + 1) :: s.margins }

/-! ## Pending keys -/

/-- An error of a key without a colon. -/
def keyError (s : State) (key : PendingKey) : ReadError :=
  .during .simpleKey key.mark .colonMissing s.cursor.mark

/-- Drop some of the pending keys; there is an error if one of them is required. -/
def dropKeys (s : State) (drops : PendingKey → Bool) : Except ReadError State :=
  match s.pending.find? fun key => drops key && key.isRequired with
  | some key => .error (s.keyError key)
  | none => .ok { s with pending := s.pending.filter fun key => !drops key }

/-- Drop the pending keys that are on another line or too far away. -/
def dropStale (s : State) : Except ReadError State :=
  s.dropKeys fun key =>
    key.mark.line != s.cursor.mark.line || keyLimit < s.cursor.mark.index - key.mark.index

/-- Drop the pending key of the innermost collection. -/
def dropKey (s : State) : Except ReadError State :=
  let level := s.level
  s.dropKeys fun key => key.level == level

/-- Note that a key may begin here. -/
def saveKey (s : State) : Except ReadError State :=
  if s.allowsKey then do
    -- In the column of the innermost block only a key can begin, so a colon has to follow.
    let isRequired := !s.inFlow && s.margin == s.cursor.column + 1
    let key : PendingKey := ⟨s.level, s.count, isRequired, s.cursor.mark⟩
    let s ← s.dropKey
    return { s with pending := key :: s.pending }
  else .ok s

/-! ## Ends and marks of documents -/

def fetchEnd (s : State) : Except ReadError State := do
  let s ← (s.closeBlocks 0).dropKey
  let mark := s.cursor.mark
  return { s.push .streamEnd mark mark with allowsKey := false, pending := [], isDone := true }

def fetchDirective (s : State) : Except ReadError State := do
  let s ← (s.closeBlocks 0).dropKey
  let (directive, stop, after) ← Directive.read s.version s.cursor
  let announced? :=
    match directive with
    | .version _ minor => some minor
    | _ => s.announced?
  let s := s.push (.directive directive) s.cursor.mark stop
  return { s with cursor := after, allowsKey := false, announced? := announced? }

def fetchDocumentStart (s : State) : Except ReadError State := do
  let s ← (s.closeBlocks 0).dropKey
  let s := s.pushOver .documentStart 3
  return { s with allowsKey := false, declared := s.announced?.getD 2, announced? := none }

def fetchDocumentEnd (s : State) : Except ReadError State := do
  let s ← (s.closeBlocks 0).dropKey
  return { s.pushOver .documentEnd 3 with allowsKey := false }

/-! ## Collections -/

def fetchFlowStart (s : State) (bracket : Bracket) (kind : TokenKind) :
    Except ReadError State := do
  let s ← s.saveKey
  return { s.pushOver kind 1 with brackets := bracket :: s.brackets, allowsKey := true }

def fetchFlowEnd (s : State) (kind : TokenKind) : Except ReadError State := do
  let s ← s.dropKey
  return { s.pushOver kind 1 with brackets := s.brackets.tail, allowsKey := false }

def fetchFlowEntry (s : State) : Except ReadError State := do
  let s ← { s with allowsKey := true }.dropKey
  return s.pushOver .flowEntry 1

/-- Refuse an entry, key or value of a block where no key may begin. -/
def requireKeyPlace (s : State) (cause : Cause) : Except ReadError Unit :=
  if s.inFlow || s.allowsKey then .ok () else .error (.found cause s.cursor.mark)

def fetchBlockEntry (s : State) : Except ReadError State := do
  s.requireKeyPlace .entryNotAllowed
  let s := s.openBlock .blockListStart s.cursor.mark s.count
  let s ← { s with allowsKey := true }.dropKey
  return s.pushOver .blockEntry 1

def fetchKey (s : State) : Except ReadError State := do
  s.requireKeyPlace .keyNotAllowed
  let s := s.openBlock .blockMappingStart s.cursor.mark s.count
  let s ← { s with allowsKey := !s.inFlow }.dropKey
  return s.pushOver .key 1

def fetchValue (s : State) : Except ReadError State := do
  let level := s.level
  match s.pending.find? fun key => key.level == level with
  | some key =>
    -- The key goes to its pending place, in front of the tokens that came since.
    let pending := s.pending.filter fun other => other.level != level
    let s := { s with pending := pending, allowsKey := false }
    let s := s.insert key.position .key key.mark
    let s := s.openBlock .blockMappingStart key.mark key.position
    return s.pushOver .value 1
  | none =>
    s.requireKeyPlace .valueNotAllowed
    let s := s.openBlock .blockMappingStart s.cursor.mark s.count
    let s ← { s with allowsKey := !s.inFlow }.dropKey
    return s.pushOver .value 1

/-! ## Scalars, names and tags -/

def fetchName (s : State) (kind : NameKind) (token : String → TokenKind) :
    Except ReadError State := do
  let s ← s.saveKey
  let (name, after) ← readName kind s.cursor
  let s := s.push (token name) s.cursor.mark after.mark
  return { s with cursor := after, allowsKey := false }

def fetchTag (s : State) : Except ReadError State := do
  let s ← s.saveKey
  let (tag, after) ← WrittenTag.read s.version s.cursor
  let s := s.push (.tag tag) s.cursor.mark after.mark
  return { s with cursor := after, allowsKey := false }

def fetchQuoted (s : State) (style : Quoted.Style) : Except ReadError State := do
  let s ← s.saveKey
  let (text, after) ← Quoted.read style s.cursor
  let s := s.push (.scalar text false) s.cursor.mark after.mark
  return { s with cursor := after, allowsKey := false }

def fetchBlock (s : State) (isFolded : Bool) : Except ReadError State := do
  let s ← { s with allowsKey := true }.dropKey
  let scalar ← Block.read isFolded s.margin s.cursor
  let s := s.push (.scalar scalar.text false) s.cursor.mark scalar.stop
  let after :=
    if scalar.dropsLines then skipSpace false scalar.after.bound scalar.after
    else scalar.after
  return { s with cursor := after }

def fetchPlain (s : State) : Except ReadError State := do
  let s ← s.saveKey
  let scalar := Plain.read ⟨s.inFlow, s.version, s.margin⟩ s.cursor
  let s := s.push (.scalar (String.ofList scalar.text) true) s.cursor.mark scalar.stop
  return { s with cursor := scalar.after, allowsKey := scalar.crossesLine }

/-! ## The next token -/

/-- Characters that begin no plain scalar. -/
def indicators : List Char :=
  "-?:,[]\x7b\x7d#&*!|>'\"%@\x60".toList

/-- Whether a plain scalar begins here. -/
def startsPlain (s : State) : Bool :=
  let c := s.cursor.peek
  let next := s.cursor.peekAt 1
  if !(isSpaceOrEnd c || indicators.contains c) then true
  else if s.inFlow && s.version != 1 && c == ':' then !isBlank next
  else !isSpaceOrEnd next && (c == '-' || !s.inFlow && (c == '?' || c == ':'))

/-- Whether a colon separates a key from a value. -/
def isValueMark (s : State) : Bool :=
  isSpaceOrEnd (s.cursor.peekAt 1) ||
    match s.brackets.head? with
    | none => false
    | some bracket =>
      -- In braces a colon needs no blank behind it, unless it follows another one.
      s.version == 1 ||
        bracket == .mapping && (s.tokens.head?.map Token.kind) != some .value

/-- The token that the next characters begin, whatever their place on the line. -/
def fetchInside (s : State) : Except ReadError State :=
  let isLone := isSpaceOrEnd (s.cursor.peekAt 1)
  match s.cursor.peek with
  | '[' => s.fetchFlowStart .list .flowListStart
  | '{' => s.fetchFlowStart .mapping .flowMappingStart
  | ']' => s.fetchFlowEnd .flowListEnd
  | '}' => s.fetchFlowEnd .flowMappingEnd
  | ',' => s.fetchFlowEntry
  | '*' => s.fetchName .reference .reference
  | '&' => s.fetchName .anchor .anchor
  | '!' => s.fetchTag
  | '\'' => s.fetchQuoted .single
  | '"' => s.fetchQuoted .double
  | c =>
    if c == '-' && isLone then s.fetchBlockEntry
    else if c == '?' && (s.inFlow || isLone) then s.fetchKey
    else if c == ':' && s.isValueMark then s.fetchValue
    else if c == '|' && !s.inFlow then s.fetchBlock false
    else if c == '>' && !s.inFlow then s.fetchBlock true
    else if s.startsPlain then s.fetchPlain
    else
      .error (.malformed
        { activity? := some .nextToken
          cause? := some (.cannotStartToken c)
          place? := some s.cursor.mark })

/-- The token at the cursor. -/
def fetchToken (s : State) : Except ReadError State :=
  let c := s.cursor
  if c.rest.isEmpty then s.fetchEnd
  else if c.column == 0 && c.peek == '%' then s.fetchDirective
  else if c.column == 0 && c.atDocumentStart then s.fetchDocumentStart
  else if c.column == 0 && c.atDocumentEnd then s.fetchDocumentEnd
  else s.fetchInside

/-- The next token or comment, and the ends of blocks before it. -/
def fetch (s : State) : Except ReadError State := do
  let space := readSpace s.inFlow s.cursor
  let start := s.cursor.mark
  let s :=
    { s with
      cursor := space.after
      allowsKey := s.allowsKey || space.crossesLine && !s.inFlow }
  if space.isComment then return s.push .comment start space.after.mark
  -- No key goes over the end of its line, so some are dropped before the next token.
  let s ← s.dropStale
  (s.closeBlocks (s.cursor.column + 1)).fetchToken

/-- How many tokens a reader has taken when it needs another: it takes none before the token after
it is there, and none that may turn out to be behind a key. -/
def taken (s : State) : Nat :=
  (s.pending.map PendingKey.position).foldl min (s.count - 1)

end State

end Scanner

/-- The tokens of a text up to its end, or up to an error. -/
structure Tokens where
  list : List Token
  error? : Option ReadError := none

namespace Scanner

/-- Tokens without comments. -/
def withoutComments (ts : List Token) : List Token :=
  ts.filter fun t => t.kind != .comment

/-- The first tokens, which a reader has seen when an error comes up. -/
def State.failed (s : State) (seen : Nat) (error : ReadError) : Tokens :=
  ⟨withoutComments (s.tokens.reverse.take seen), some error⟩

/-- Fetch tokens up to the end. Every token but the last takes a character, so the length of the
text bounds their number. -/
def run : Nat → State → Tokens
  | 0, s => ⟨withoutComments s.tokens.reverse, none⟩
  | fuel + 1, s =>
    if s.isDone then ⟨withoutComments s.tokens.reverse, none⟩
    else
      -- A key without its colon comes up before the reader takes the tokens that wait for it.
      match s.dropStale with
      | .error e => s.failed s.seen e
      | .ok s =>
        -- Any other error comes up only when the reader is out of tokens that it can take.
        match s.fetch with
        | .error e => s.failed s.taken e
        -- A directive for the version is read by the reader one token later.
        | .ok next => run fuel { next with version := s.declared, seen := s.taken }

end Scanner

/-- The tokens of a text. -/
def tokens (text : List Char) : Tokens :=
  Scanner.run (text.length + 2) { cursor := Cursor.start text }

end Schematic.Yaml
