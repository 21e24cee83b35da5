import Schematic.Entries
import Schematic.Yaml.Node
import Schematic.Yaml.Scanner

/-!
# Nodes of a text

A document is read from its tokens by recursive descent. Where content is missing there is an empty
scalar. Directives and marks stand between documents. How many collections may be around a node is
up to the caller.

## Main definitions

- `Composer` — reading from tokens
- `Composer.node` — a node and everything in it
- `Composer.nextDocument?` — the next document of a text
-/

namespace Schematic.Yaml

/-- What an anchor names: a node, or a node that is still being read. -/
inductive Anchored where
  | node (node : Node)
  | unfinished (isEndless : Bool) (shape : Shape) (start : Mark)

/-- Where reading from tokens stands. -/
structure ComposerState where
  tokens : List Token
  anchors : Entries Anchored := []

/-- Reading from tokens. -/
abbrev Composer := StateT ComposerState (Except ReadError)

namespace Composer

/-- What holds for a whole document. -/
structure Context where
  /-- The error that ends the tokens. -/
  error : ReadError
  /-- The minor version of the language. -/
  version : Nat
  /-- What handles of tags stand for. -/
  handles : Entries String

/-- Where a node stands. -/
structure Place where
  inBlock : Bool
  /-- Whether a list may be indented no further than its surroundings. -/
  allowsFlushList : Bool := false
  /-- Whether the node exists before its content: so it is unless a mapping is around it. -/
  isEarly : Bool
  /-- How many collections are around the node. -/
  depth : Nat

/-! ## Tokens -/

/-- The next token. -/
def peek (context : Context) : Composer Token := do
  match (← get).tokens with
  | t :: _ => return t
  | [] => throw context.error

/-- Move over a token. -/
def advance : Composer Unit :=
  modify fun s => { s with tokens := s.tokens.tail }

def setAnchor (name? : Option String) (target : Anchored) : Composer Unit :=
  match name? with
  | some name => modify fun s => { s with anchors := s.anchors.insert name target }
  | none => return

/-! ## Tags -/

/-- Replace escapes by the characters of their numbers. -/
def unescaped : List Char → List Char
  | '%' :: a :: b :: rest =>
    -- The scanner lets through hexadecimal digits only, so the number is always there.
    Char.ofNat ((Text.hexValue? [a, b]).getD 0) :: unescaped rest
  | c :: rest => c :: unescaped rest
  | [] => []

/-- What handles stand for unless a directive says otherwise. -/
def standardHandles : Entries String :=
  [("!", "!"), ("!!", Tag.standardPrefix)]

/-- What comes before a node. -/
structure Properties where
  start? : Option Mark := none
  anchor? : Option String := none
  tag? : Option Tag := none

/-- Replace the handle of a tag. -/
def resolveTag (context : Context) (start place : Mark) (tag : WrittenTag) : Composer Tag :=
  match tag.handle? with
  | none => return ⟨tag.suffix, false⟩
  | some handle =>
    match context.handles.get? handle with
    | some address => return ⟨address ++ String.ofList (unescaped tag.suffix.toList), true⟩
    | none => throw (.during .node start (.undefinedHandle handle) place)

/-- The anchor and the tag before a node, in any order. A tag before an anchor is reported at the
anchor. -/
def properties (context : Context) : Composer Properties := do
  let first ← peek context
  match first.kind with
  | .anchor name =>
    advance
    let second ← peek context
    match second.kind with
    | .tag tag =>
      advance
      let tag ← resolveTag context first.start second.start tag
      return ⟨some first.start, some name, some tag⟩
    | _ => return ⟨some first.start, some name, none⟩
  | .tag tag =>
    advance
    let second ← peek context
    match second.kind with
    | .anchor name =>
      advance
      let tag ← resolveTag context second.start second.start tag
      return ⟨some second.start, some name, some tag⟩
    | _ =>
      let tag ← resolveTag context first.start first.start tag
      return ⟨some first.start, none, some tag⟩
  | _ => return {}

/-- A tag that leaves the kind of its node open. -/
def isOpen (tag? : Option Tag) : Bool :=
  match tag? with
  | none => true
  | some tag => tag.name == "!"

/-- The tag of a scalar: the one that was written, or what the text tells. -/
def scalarTag (context : Context) (tag? : Option Tag) (text : String) (isPlain : Bool) :
    Composer Tag :=
  match tag? with
  | some tag =>
    if tag.name == "!" then kindTag else return tag
  | none => if isPlain then kindTag else return Tag.standard "str"
where
  kindTag : Composer Tag :=
    match Schema.kind context.version text with
    | .ok kind => return Tag.ofKind kind
    | .error e => throw (.fault e)

/-- The tag of a collection: the one that was written, or the standard one. -/
def collectionTag (tag? : Option Tag) (name : String) : Tag :=
  if isOpen tag? then Tag.standard name else tag?.getD (Tag.standard name)

/-! ## Nodes -/

/-- A scalar that was left out. -/
def emptyScalar (context : Context) (mark : Mark) : Composer Node := do
  return .scalar (← scalarTag context none "" true) "" mark false

/-- The node that an alias stands for. -/
def aliased (name : String) (place : Mark) : Composer Node := do
  match (← get).anchors.get? name with
  | some (.node node) => return node
  | some (.unfinished isEndless shape start) => return .cycle isEndless shape start
  | none => throw (.found (.undefinedAlias name) place)

/-- A scalar with its properties. -/
def scalar (context : Context) (start : Mark) (props : Properties) (text : String)
    (isPlain : Bool) : Composer Node := do
  let tag ← scalarTag context props.tag? text isPlain
  let node : Node := .scalar tag text start props.anchor?.isSome
  setAnchor props.anchor? (.node node)
  return node

/-- A collection whose content is read by `content`, with its properties. The content is told
whether its nodes exist early, too. -/
def collection (start : Mark) (props : Properties) (place : Place) (shape : Shape)
    (content : Place → Composer (Tag → Node)) : Composer Node := do
  let tag :=
    collectionTag props.tag? (if shape == .mapping then "map" else "seq")
  -- An alias inside of the collection names it before it is complete.
  setAnchor props.anchor? (.unfinished place.isEarly shape start)
  let isPlainMapping := shape == .mapping && tag.name == (Tag.standard "map").name
  let inner : Place :=
    { inBlock := place.inBlock
      isEarly := place.isEarly && !isPlainMapping
      depth := place.depth + 1 }
  let node := (← content inner) tag
  setAnchor props.anchor? (.node node)
  return node

mutual

/-- A node, with everything in it, inside of at most `limit` collections. -/
def node (limit : Nat) (context : Context) : Nat → Place → Composer Node
  | 0, _ => throw .tooDeep
  | fuel + 1, place => do
    if limit < place.depth then throw .tooDeep
    let first ← peek context
    if let .reference name := first.kind then
      advance
      return ← aliased name first.start
    let props ← properties context
    let next ← peek context
    let start := props.start?.getD next.start
    let sequence (content : Place → Composer (List Node)) : Composer Node :=
      collection start props place .sequence fun inner => do
        let items ← content inner
        return fun tag => .sequence tag items start
    let mapping (content : Place → Composer (List (Node × Node))) : Composer Node :=
      collection start props place .mapping fun inner => do
        let entries ← content inner
        return fun tag => .mapping tag entries start
    match next.kind with
    | .scalar text isPlain =>
      advance
      scalar context start props text isPlain
    | .flowListStart =>
      advance
      sequence fun inner =>
        flowItems limit context fuel next.start true { inner with inBlock := false }
    | .flowMappingStart =>
      advance
      mapping fun inner =>
        flowEntries limit context fuel next.start true { inner with inBlock := false }
    | kind =>
      if kind == .blockEntry && place.allowsFlushList then
        sequence fun inner => flushItems limit context fuel inner
      else if kind == .blockListStart && place.inBlock then
        advance
        sequence fun inner => blockItems limit context fuel next.start inner
      else if kind == .blockMappingStart && place.inBlock then
        advance
        mapping fun inner => blockEntries limit context fuel next.start inner
      else if props.anchor?.isSome || props.tag?.isSome then
        -- An anchor or a tag without content stands for an empty scalar.
        scalar context start props "" (isOpen props.tag?)
      else
        throw (.during (.content place.inBlock) start (.contentExpected kind.name) next.start)

/-- The items of a block list. -/
def blockItems (limit : Nat) (context : Context) : Nat → Mark → Place → Composer (List Node)
  | 0, _, _ => throw .tooDeep
  | fuel + 1, start, place => do
    let t ← peek context
    match t.kind with
    | .blockEntry =>
      advance
      let next ← peek context
      let item ←
        if next.kind == .blockEntry || next.kind == .blockEnd then emptyScalar context t.stop
        else node limit context fuel place
      return item :: (← blockItems limit context fuel start place)
    | .blockEnd =>
      advance
      return []
    | kind => throw (.during .blockList start (.blockEndExpected kind.name) t.start)

/-- The items of a block list that is indented no further than its key. -/
def flushItems (limit : Nat) (context : Context) : Nat → Place → Composer (List Node)
  | 0, _ => throw .tooDeep
  | fuel + 1, place => do
    let t ← peek context
    if t.kind != .blockEntry then return []
    advance
    let next ← peek context
    let isEmpty := [.blockEntry, .key, .value, .blockEnd].contains next.kind
    let item ← if isEmpty then emptyScalar context t.stop else node limit context fuel place
    return item :: (← flushItems limit context fuel place)

/-- The entries of a block mapping. Only the newer version lets a key be left out. -/
def blockEntries (limit : Nat) (context : Context) :
    Nat → Mark → Place → Composer (List (Node × Node))
  | 0, _, _ => throw .tooDeep
  | fuel + 1, start, place => do
    let t ← peek context
    let content : Place := { place with allowsFlushList := true }
    let ends (kind : TokenKind) : Bool := [.key, .value, .blockEnd].contains kind
    match t.kind with
    | .blockEnd =>
      advance
      return []
    | kind =>
      let key ←
        if kind == .key then do
          advance
          let next ← peek context
          if ends next.kind then emptyScalar context t.stop
          else node limit context fuel { content with isEarly := false }
        else if kind == .value && 1 < context.version then emptyScalar context t.start
        else throw (.during .blockMapping start (.blockEndExpected kind.name) t.start)
      let mark ← peek context
      let value ←
        if mark.kind == .value then do
          advance
          let next ← peek context
          if ends next.kind then emptyScalar context next.stop else node limit context fuel content
        else emptyScalar context mark.start
      return (key, value) :: (← blockEntries limit context fuel start place)

/-- The value of an entry of a flow collection that `close` ends, empty if there is none. -/
def flowValue (limit : Nat) (context : Context) : Nat → TokenKind → Place → Composer Node
  | 0, _, _ => throw .tooDeep
  | fuel + 1, close, place => do
    let mark ← peek context
    if mark.kind != .value then return ← emptyScalar context mark.start
    advance
    let next ← peek context
    if next.kind == .flowEntry || next.kind == close then emptyScalar context mark.stop
    else node limit context fuel place

/-- The key of an entry of a flow collection, behind its mark. -/
def flowKey (limit : Nat) (context : Context) : Nat → TokenKind → Mark → Place → Composer Node
  | 0, _, _, _ => throw .tooDeep
  | fuel + 1, close, stop, place => do
    let next ← peek context
    if [.value, .flowEntry, close].contains next.kind then emptyScalar context stop
    else node limit context fuel { place with isEarly := false }

/-- The items of a flow list. An item with a key is a mapping of one entry. -/
def flowItems (limit : Nat) (context : Context) : Nat → Mark → Bool → Place → Composer (List Node)
  | 0, _, _, _ => throw .tooDeep
  | fuel + 1, start, isFirst, place => do
    let t ← peek context
    -- All items but the first stand behind a comma.
    if t.kind != .flowListEnd && !isFirst then
      if t.kind == .flowEntry then advance
      else throw (.during .flowList start (.listEndExpected t.kind.name) t.start)
    let t ← peek context
    match t.kind with
    | .flowListEnd =>
      advance
      return []
    | .key =>
      advance
      let inner : Place := { place with isEarly := false, depth := place.depth + 1 }
      let key ← flowKey limit context fuel .flowListEnd t.stop inner
      let value ← flowValue limit context fuel .flowListEnd inner
      let item : Node := .mapping (Tag.standard "map") [(key, value)] t.start
      return item :: (← flowItems limit context fuel start false place)
    | _ =>
      let item ← node limit context fuel place
      return item :: (← flowItems limit context fuel start false place)

/-- The entries of a flow mapping. A node without a key mark is a key without a value. Only the
newer version lets a key be left out. -/
def flowEntries (limit : Nat) (context : Context) :
    Nat → Mark → Bool → Place → Composer (List (Node × Node))
  | 0, _, _, _ => throw .tooDeep
  | fuel + 1, start, isFirst, place => do
    let t ← peek context
    if t.kind != .flowMappingEnd && !isFirst then
      if t.kind == .flowEntry then advance
      else throw (.during .flowMapping start (.mappingEndExpected t.kind.name) t.start)
    let t ← peek context
    match t.kind with
    | .flowMappingEnd =>
      advance
      return []
    | .key =>
      advance
      let key ← flowKey limit context fuel .flowMappingEnd t.stop place
      let value ← flowValue limit context fuel .flowMappingEnd place
      return (key, value) :: (← flowEntries limit context fuel start false place)
    | kind =>
      if kind == .value && 1 < context.version then
        let key ← emptyScalar context t.stop
        let value ← flowValue limit context fuel .flowMappingEnd place
        return (key, value) :: (← flowEntries limit context fuel start false place)
      let key ← node limit context fuel { place with isEarly := false }
      let next ← peek context
      let value ← emptyScalar context next.start
      return (key, value) :: (← flowEntries limit context fuel start false place)

end

/-! ## Documents -/

/-- What is known between two documents. -/
structure Between where
  /-- The minor version of the last document. -/
  version : Nat := 2
  /-- Whether a document may begin without a mark. -/
  allowsBare : Bool := true

/-- The directives before a document. -/
structure Directives where
  version? : Option Nat := none
  handles : Entries String := []

/-- A document whose start was read. -/
structure Opened extends Context where
  start : Mark
  /-- Whether it began without a mark. -/
  isBare : Bool

/-- What holds outside documents. -/
def outside (error : ReadError) : Context :=
  ⟨error, 2, []⟩

/-- Directives in a row. -/
def directives (error : ReadError) : Nat → Directives → Composer Directives
  | 0, ds => return ds
  | fuel + 1, ds => do
    let t ← peek (outside error)
    match t.kind with
    | .directive directive =>
      advance
      match directive with
      | .version major minor =>
        if ds.version?.isSome then throw (.found .repeatedVersion t.start)
        if major != 1 then throw (.found .wrongVersion t.start)
        directives error fuel { ds with version? := some minor }
      | .handle name address =>
        if ds.handles.hasKey name then throw (.found (.repeatedHandle name) t.start)
        directives error fuel { ds with handles := ds.handles ++ [(name, address)] }
      | .other => directives error fuel ds
    | _ => return ds

/-- Move over end marks in a row. -/
def skipEnds (error : ReadError) : Nat → Composer Unit
  | 0 => return
  | fuel + 1 => do
    let t ← peek (outside error)
    if t.kind == .documentEnd then
      advance
      skipEnds error fuel

/-- A token that ends a document. -/
def isDocumentBound : TokenKind → Bool
  | .directive _ | .documentStart | .documentEnd | .streamEnd => true
  | _ => false

/-- The start of the next document, or nothing at the end of the text. -/
def documentStart? (error : ReadError) (between : Between) : Composer (Option Opened) := do
  let fuel := (← get).tokens.length.succ
  let t ← peek (outside error)
  if between.allowsBare && (t.kind == .documentEnd || !isDocumentBound t.kind) then
    -- The version of the last document still holds, but its handles do not.
    return some ⟨⟨error, between.version, standardHandles⟩, t.start, true⟩
  skipEnds error fuel
  let t ← peek (outside error)
  if t.kind == .streamEnd then return none
  let ds ← directives error fuel {}
  let t ← peek (outside error)
  if t.kind != .documentStart then
    throw (.found (.documentStartExpected t.kind.name) t.start)
  advance
  return some ⟨⟨error, ds.version?.getD 2, ds.handles ++ standardHandles⟩, t.start, false⟩

/-- Where the root of a document stands. -/
def rootPlace : Place :=
  { inBlock := true, isEarly := true, depth := 0 }

/-- The root of a document. Without a mark it cannot be left out. -/
def root (limit : Nat) (document : Opened) : Composer Node := do
  modify fun s => { s with anchors := [] }
  -- A few calls are made for each token at most, so the fuel lasts for all tokens.
  let fuel := 4 * (← get).tokens.length + 16
  let t ← peek document.toContext
  if !document.isBare && isDocumentBound t.kind then emptyScalar document.toContext t.start
  else node limit document.toContext fuel rootPlace

/-- The end of a document: what is known after it. Behind an end mark the newer version lets a
document begin without a mark. -/
def documentEnd (document : Opened) : Composer Between := do
  let t ← peek document.toContext
  let isMarked := t.kind == .documentEnd
  if isMarked then
    advance
    let next ← peek document.toContext
    if next.kind != .streamEnd && t.stop.line == next.start.line then
      throw (.found (.contentAfterEnd next.kind.name) next.start)
  return ⟨document.version, isMarked && document.version != 1⟩

end Composer

end Schematic.Yaml
