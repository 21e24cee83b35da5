import Schematic.Text.Base64
import Schematic.Yaml.Datum
import Schematic.Yaml.Node
import Schematic.Yaml.Numeral

/-!
# From nodes to data

The tag of a node says how its content is understood. Keys of a mapping must differ, and the
mappings under a merge key give the entries that are not there yet.

Below a tag that is not standard errors are not told: all that is said is that nothing is known
about the tag. This goes for the whole content if the content is there when the node is, and
otherwise for its scalars and keys.

## Main definitions

- `Builder` — the standard tags
- `Construct.scalar` — the datum of a scalar
- `construct` — the datum of a node
-/

namespace Schematic.Yaml

/-- The standard tags. -/
inductive Builder where
  | null
  | bool
  | int
  | float
  | binary
  | timestamp
  | orderedMapping
  | pairs
  | set
  | text
  | list
  | mapping
  /-- Any other tag. -/
  | unknown
deriving DecidableEq, Repr

/-- The names of the standard tags. -/
def builderNames : List (String × Builder) :=
  [("null", .null), ("bool", .bool), ("int", .int), ("float", .float), ("binary", .binary),
    ("timestamp", .timestamp), ("omap", .orderedMapping), ("pairs", .pairs), ("set", .set),
    ("str", .text), ("seq", .list), ("map", .mapping)]

/-- The standard tag that a tag is. -/
def Tag.builder (tag : Tag) : Builder :=
  let found := builderNames.find? fun (name, _) => Tag.standardPrefix ++ name == tag.name
  (found.map Prod.snd).getD .unknown

namespace Construct

/-! ## Scalars -/

/-- The bytes of a scalar. -/
def binary (text : String) (start : Mark) : Except ReadError Datum :=
  match Text.Base64.asciiFlaw? text.toList with
  | some reason => .error (.found (.notAscii reason) start)
  | none =>
    match Text.Base64.decode text.toList with
    | .ok bytes => .ok (.bytes bytes)
    | .error flaw => .error (.found (.badBase64 flaw.message) start)

/-- The date of a scalar. -/
def timestamp (text : String) (start : Mark) : Except ReadError Datum :=
  match Timestamp.ofChars? text.toList with
  | none => .error (.found (.badTimestamp text) start)
  | some t =>
    match t.check with
    | .ok () => .ok (.timestamp t)
    | .error e => .error (.fault (.date e))

/-- A datum of a value that may not exist. -/
def ofFault {α : Type} (make : α → Datum) (value : Except Fault α) : Except ReadError Datum :=
  match value with
  | .ok a => .ok (make a)
  | .error e => .error (.fault e)

/-- What an error says of a node that has the wrong shape for its tag. -/
def shapeError (builder : Builder) (found : Shape) (start : Mark) : ReadError :=
  match builder with
  | .orderedMapping => .during .orderedMapping start (.listExpected found) start
  | .pairs => .during .pairs start (.listExpected found) start
  | .list => .found (.shapeExpected .sequence found) start
  | .mapping | .set => .found (.shapeExpected .mapping found) start
  | _ => .found (.shapeExpected .scalar found) start

/-- The datum of a scalar. -/
def scalar (version : Nat) (tag : Tag) (text : String) (start : Mark) (isAnchored : Bool) :
    Except ReadError Datum :=
  match tag.builder with
  | .null => .ok .null
  | .bool => ofFault (.bool · isAnchored) (Numeral.truth text)
  | .int => ofFault .int (Numeral.integer version text)
  | .float => ofFault .float (Numeral.decimal version text)
  | .binary => binary text start
  | .timestamp => timestamp text start
  | .text => .ok (if tag.hasHandle then .tagged tag.name text else .text text)
  | .unknown => .ok (.tagged tag.name text)
  | builder => .error (shapeError builder .scalar start)

/-! ## Errors below unknown tags -/

/-- An unknown tag and its place. -/
structure Cover where
  tag : String
  start : Mark

/-- Hide an error below an unknown tag. -/
def hide {α : Type} (cover? : Option Cover) (result : Except ReadError α) : Except ReadError α :=
  match cover?, result with
  | some cover, .error _ => .error (.found (.unknownTag cover.tag) cover.start)
  | _, result => result

/-- The cover of a child: content that is there with its node is covered, other content is not. -/
def coverOf (cover? : Option Cover) (isEarly : Bool) (child : Node) : Option Cover :=
  if isEarly && child.shape != .scalar then none else cover?

/-- The cover of a node. -/
def coverFor (tag : Tag) (start : Mark) : Option Cover :=
  if tag.builder == .unknown then some ⟨tag.name, start⟩ else none

/-- The tag that a collection keeps. -/
def keptTag? (tag : Tag) : Option String :=
  if tag.builder == .unknown then some tag.name else none

/-! ## Mappings -/

/-- Look a key up. -/
def findKey? (key : Datum) (entries : List (Datum × Datum)) : Option Datum :=
  (entries.find? fun (other, _) => key.isSameKey other).map Prod.snd

/-- Check that a key can be looked up. -/
def checkKey (start : Mark) (node : Node) (key : Datum) : Except ReadError Unit :=
  match key with
  | .set _ => .error (.during .mapping start .unhashableKey node.start)
  | _ => .ok ()

def ofNumber {α : Type} (result : Except NumberError α) : Except ReadError α :=
  result.mapError fun e => .fault (.number e)

/-- Put an entry behind others, unless its key is among them. The mapping begins at `start`. -/
def addEntry (start : Mark) (node : Node) (done : List (Datum × Datum)) (key value : Datum) :
    Except ReadError (List (Datum × Datum)) := do
  if let some e := key.keyFault? then throw (.fault e)
  match findKey? key done with
  | none => return done ++ [(key, value)]
  | some former =>
    let cause : Cause :=
      .repeatedKey (← ofNumber key.keyText) (← ofNumber value.written) (← ofNumber former.written)
    throw (.during .mapping start cause node.start)

/-- Put a member behind others, unless it is among them. -/
def addMember (start : Mark) (node : Node) (done : List Datum) (key : Datum) :
    Except ReadError (List Datum) := do
  if let some e := key.keyFault? then throw (.fault e)
  if done.any key.isSameKey then
    throw (.during .set start (.repeatedMember (← ofNumber key.keyText)) node.start)
  return done ++ [key]

/-- Put an entry of an ordered mapping behind others, unless its key is among them. -/
def addOrdered (done : List (Datum × Datum)) (key value : Datum) :
    Except ReadError (List (Datum × Datum)) := do
  if let some e := key.unhashable? then throw (.fault e)
  if (findKey? key done).isSome then throw (.fault .repeatedEntry)
  return done ++ [(key, value)]

/-- Put the entries of merged mappings behind others, except those whose keys are there. -/
def merge (own : List (Datum × Datum)) (merged : List Datum) : List (Datum × Datum) :=
  (merged.flatMap Datum.entries).foldl
    (fun done (key, value) =>
      if (findKey? key done).isSome then done else done ++ [(key, value)])
    own

/-- A key that stands for other entries. -/
def isMergeKey (node : Node) : Bool :=
  node.hasTag "merge"

end Construct

open Construct

mutual

/-- The datum of a node. `isEarly` tells whether the node exists before its content. -/
def construct (version : Nat) (isEarly : Bool) : Node → Except ReadError Datum
  | .scalar tag text start isAnchored => Construct.scalar version tag text start isAnchored
  | .sequence tag items start =>
    match tag.builder with
    | .list | .unknown => do
      let cover? := coverFor tag start
      return .list (keptTag? tag) (← constructItems version isEarly cover? items)
    | .orderedMapping => do return .map none (← orderedEntries version isEarly start [] items)
    | .pairs => do return .list none (← pairItems version isEarly start items)
    | builder => .error (shapeError builder .sequence start)
  | .mapping tag entries start =>
    match tag.builder with
    | .mapping | .unknown => do
      let cover? := coverFor tag start
      let isEarly := isEarly && cover?.isSome
      -- Merged mappings are read first, but the entries of the mapping itself go before theirs.
      let merged ← hide cover? (mergedMappings version start [] entries)
      let own ← ownEntries version isEarly cover? start [] entries
      return .map (keptTag? tag) (merge own merged)
    | .set => do return .set (← setMembers version isEarly start [] entries)
    | builder => .error (shapeError builder .mapping start)
  | .cycle isEndless _ _ => .ok (if isEndless then .endless else .null)
termination_by structural node => node

/-- The data of the items of a list. -/
def constructItems (version : Nat) (isEarly : Bool) (cover? : Option Cover) :
    List Node → Except ReadError (List Datum)
  | [] => .ok []
  | item :: rest => do
    let first ← hide (coverOf cover? isEarly item) (construct version isEarly item)
    let more ← constructItems version isEarly cover? rest
    return first :: more
termination_by structural items => items

/-- The entries of a mapping, apart from merge keys, behind those that are done. -/
def ownEntries (version : Nat) (isEarly : Bool) (cover? : Option Cover) (start : Mark)
    (done : List (Datum × Datum)) : List (Node × Node) → Except ReadError (List (Datum × Datum))
  | [] => .ok done
  | (keyNode, valueNode) :: rest =>
    if isMergeKey keyNode then ownEntries version isEarly cover? start done rest
    else do
      let key ← hide cover? (construct version false keyNode)
      let value ← hide (coverOf cover? isEarly valueNode) (construct version isEarly valueNode)
      -- The key of a default value is its text, whatever the tag says of it.
      let key := if keyNode.hasTag "value" then .text "=" else key
      hide cover? (checkKey start keyNode key)
      let done ← hide cover? (addEntry start keyNode done key value)
      ownEntries version isEarly cover? start done rest
termination_by structural entries => entries

/-- The mappings under the merge keys of a mapping. Only one merge key may have any. -/
def mergedMappings (version : Nat) (start : Mark) (done : List Datum) :
    List (Node × Node) → Except ReadError (List Datum)
  | [] => .ok done
  | (key, .mapping tag entries place) :: rest =>
    if isMergeKey key then
      if done.isEmpty then do
        let merged ← construct version false (.mapping tag entries place)
        mergedMappings version start [merged] rest
      else .error (.during .mapping start .repeatedMerge key.start)
    else mergedMappings version start done rest
  | (key, .sequence _ items _) :: rest =>
    if isMergeKey key then
      if done.isEmpty then do
        let merged ← mergedItems version start items
        mergedMappings version start merged rest
      else .error (.during .mapping start .repeatedMerge key.start)
    else mergedMappings version start done rest
  | (key, value) :: rest =>
    if isMergeKey key then
      if done.isEmpty then .error (.during .mapping start (.notMergeable value.shape) value.start)
      else .error (.during .mapping start .repeatedMerge key.start)
    else mergedMappings version start done rest
termination_by structural entries => entries

/-- The mappings in a list under a merge key. -/
def mergedItems (version : Nat) (start : Mark) : List Node → Except ReadError (List Datum)
  | [] => .ok []
  | item :: rest => do
    if item.shape != .mapping then
      throw (.during .mapping start (.notMergeableItem item.shape) item.start)
    let merged ← construct version false item
    let more ← mergedItems version start rest
    return merged :: more
termination_by structural items => items

/-- The members of a set that begins at `start`, behind those that are done. -/
def setMembers (version : Nat) (isEarly : Bool) (start : Mark) (done : List Datum) :
    List (Node × Node) → Except ReadError (List Datum)
  | [] => .ok done
  | (keyNode, valueNode) :: rest => do
    let key ← construct version false keyNode
    checkKey start keyNode key
    -- A set has no values: they are read for their errors only.
    let _ ← construct version isEarly valueNode
    let done ← addMember start keyNode done key
    setMembers version isEarly start done rest
termination_by structural entries => entries

/-- The entries of an ordered mapping, which is a list of mappings of one entry each. -/
def orderedEntries (version : Nat) (isEarly : Bool) (start : Mark)
    (done : List (Datum × Datum)) : List Node → Except ReadError (List (Datum × Datum))
  | [] => .ok done
  | .mapping _ [(keyNode, valueNode)] _ :: rest => do
    let key ← construct version isEarly keyNode
    let value ← construct version isEarly valueNode
    let done ← addOrdered done key value
    orderedEntries version isEarly start done rest
  | .mapping _ entries place :: _ =>
    .error (.during .orderedMapping start (.oneEntryExpected entries.length) place)
  | item :: _ => .error (.during .orderedMapping start (.entryExpected item.shape) item.start)
termination_by structural items => items

/-- The pairs of a list of mappings of one entry each. -/
def pairItems (version : Nat) (isEarly : Bool) (start : Mark) :
    List Node → Except ReadError (List Datum)
  | [] => .ok []
  | .mapping _ [(keyNode, valueNode)] _ :: rest => do
    let key ← construct version isEarly keyNode
    let value ← construct version isEarly valueNode
    let more ← pairItems version isEarly start rest
    return .pair key value :: more
  | .mapping _ entries place :: _ =>
    .error (.during .pairs start (.oneEntryExpected entries.length) place)
  | item :: _ => .error (.during .pairs start (.entryExpected item.shape) item.start)
termination_by structural items => items

end

end Schematic.Yaml
