import Schematic.Yaml.Composer
import Schematic.Yaml.Construct

/-!
# Reading YAML

A text holds any number of documents if it has three dashes anywhere, and at most one otherwise.
Documents that are null are dropped. How deeply a text may be nested is up to the caller, and
aliases count for what they name.

## Main definitions

- `unacceptable?` — the first character that no YAML text has
- `read` — the documents of a text
-/

namespace Schematic.Yaml

/-- A character that a YAML text may have. -/
def isAcceptable (c : Char) : Bool :=
  let n := c.toNat
  c == '\t' || c == '\n' || c == '\r' || 0x20 ≤ n && n ≤ 0x7E || n == 0x85 ||
    0xA0 ≤ n && n != 0xFFFE && n != 0xFFFF

/-- The first character that no YAML text has, and its position. -/
def unacceptable? (text : List Char) : Option (Char × Nat) :=
  let before := text.takeWhile isAcceptable
  (text.drop before.length).head?.map fun c => (c, before.length)

namespace Reader

/-- The data of documents one after the other, each as soon as it has been read. -/
def dataOf (limit : Nat) (error : ReadError) : Nat → Composer.Between → Composer (List Datum)
  | 0, _ => throw .tooDeep
  | fuel + 1, between => do
    match ← Composer.documentStart? error between with
    | none => return []
    | some document =>
      let node ← Composer.root limit document
      let next ← Composer.documentEnd document
      let datum ← construct document.version true node
      return datum :: (← dataOf limit error fuel next)

/-- The datum of the only document, if there is one. -/
def single (limit : Nat) (error : ReadError) : Composer (List Datum) := do
  match ← Composer.documentStart? error {} with
  | none => return []
  | some document =>
    let node ← Composer.root limit document
    let next ← Composer.documentEnd document
    if let some other ← Composer.documentStart? error next then
      throw (.during .singleDocument node.start .anotherDocument other.start)
    return [← construct document.version true node]

/-- Whether a text may hold several documents. -/
def mayHoldSeveral (text : List Char) : Bool :=
  Text.occursIn ['-', '-', '-'] text

/-- The data of the documents of a text. -/
def dataOfText (limit : Nat) (text : List Char) : Except ReadError (List Datum) :=
  let ts := tokens text
  let error := ts.error?.getD .tooDeep
  let reader :=
    if mayHoldSeveral text then dataOf limit error (ts.list.length + 2) {} else single limit error
  (reader.run { tokens := ts.list }).map Prod.fst

/-- Whether a document counts. -/
def isPresent : Datum → Bool
  | .null => false
  | _ => true

end Reader

/-- The documents of a text in which at most `limit` collections are around a node. -/
def read (limit : Nat) (text : List Char) : Except ReadError (List Value) := do
  if let some (c, position) := unacceptable? text then throw (.unacceptable c position)
  let data := (← Reader.dataOfText limit text).filter Reader.isPresent
  -- What an alias names may be nested more deeply than the place where it stands allows.
  if data.any fun d => limit < d.nesting then throw .tooDeep
  data.mapM Datum.toValue

end Schematic.Yaml
