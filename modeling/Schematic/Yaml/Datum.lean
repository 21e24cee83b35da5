import Schematic.Number.Reading
import Schematic.Number.Shortest
import Schematic.Text.Search
import Schematic.Value.Basic
import Schematic.Yaml.Error
import Schematic.Yaml.Timestamp

/-!
# What nodes stand for

The values of nodes before they become values of a document. Keys can be anything, dates are not
yet text, and tags that are not standard are kept: a local tag on a node is the short form of a
mapping with one key.

## Main definitions

- `Datum` — what a node stands for
- `Datum.isSameKey` — when two keys are the same
- `Datum.nesting` — how deeply a datum is nested
- `Datum.text`, `Datum.quoted` — how keys and values read
- `Datum.toValue` — the value of a document
-/

namespace Schematic.Yaml

/-- What a node stands for. -/
inductive Datum where
  | null
  /-- A truth value; under an anchor it reads like a number. -/
  | bool (b : Bool) (isAnchored : Bool)
  | int (n : Int)
  | float (x : Binary64)
  | text (s : String)
  | bytes (bytes : List UInt8)
  | timestamp (t : Timestamp)
  /-- A scalar with a tag that says nothing about its value. -/
  | tagged (tag : String) (text : String)
  | list (tag? : Option String) (items : List Datum)
  | map (tag? : Option String) (entries : List (Datum × Datum))
  | set (members : List Datum)
  | pair (first second : Datum)
  /-- A list or mapping that contains itself. -/
  | endless
deriving Inhabited

namespace Datum

def entries : Datum → List (Datum × Datum)
  | map _ es => es
  | _ => []

/-! ## Keys -/

/-- The number that a scalar equals; truth values are zero and one. -/
def number? : Datum → Option (Int ⊕ Binary64)
  | bool b _ => some (.inl (if b then 1 else 0))
  | int n => some (.inl n)
  | float x =>
    match x.toInt? with
    | some n => some (.inl n)
    | none => some (.inr x)
  | _ => none

/-- Equality of numbers. -/
def isSameNumber : Int ⊕ Binary64 → Int ⊕ Binary64 → Bool
  | .inl m, .inl n => m == n
  | .inr x, .inr y => x.eqv y
  | _, _ => false

mutual

/-- Whether two keys are the same: numbers by value, text and lists by content. Tagged scalars are
never the same. -/
def isSameKey : Datum → Datum → Bool
  | null, null => true
  | text s, text t => s == t
  | bytes s, bytes t => s == t
  | timestamp s, timestamp t => s == t
  | list _ xs, list _ ys => areSameKeys xs ys
  | map _ es, map _ fs => areSameEntries es fs
  | pair a b, pair c d => isSameKey a c && isSameKey b d
  | x, y =>
    -- All that is left are scalars that may equal a number, and those that never do.
    match number? x, number? y with
    | some m, some n => isSameNumber m n
    | _, _ => false
termination_by structural x => x

/-- Whether two lists have the same items. -/
def areSameKeys : List Datum → List Datum → Bool
  | [], [] => true
  | x :: xs, y :: ys => isSameKey x y && areSameKeys xs ys
  | _, _ => false
termination_by structural xs => xs

/-- Whether two mappings have the same entries in the same order. -/
def areSameEntries : List (Datum × Datum) → List (Datum × Datum) → Bool
  | [], [] => true
  | (k, v) :: es, (l, w) :: fs => isSameKey k l && isSameKey v w && areSameEntries es fs
  | _, _ => false
termination_by structural es => es

end

/-- Whether a datum inside a key cannot be looked up. -/
def unhashable? : Datum → Option Fault
  | list _ _ => some (.unhashable true)
  | map _ _ => some (.unhashable false)
  | _ => none

/-- Why a key cannot be looked up: lists and mappings may be keys, but not inside keys. -/
def keyFault? : Datum → Option Fault
  | list _ items => items.findSome? unhashable?
  | map _ es => es.findSome? fun (_, v) => v.unhashable?
  | _ => none

/-! ## Text -/

/-- The written form of a date inside a list or mapping. -/
def quotedTimestamp (t : Timestamp) : String :=
  match t.time? with
  | none => s!"datetime.date({t.year}, {t.month}, {t.day})"
  | some time =>
    let second := if time.second = 0 && time.microsecond = 0 then "" else s!", {time.second}"
    let fraction := if time.microsecond = 0 then "" else s!", {time.microsecond}"
    s!"TimeStamp({t.year}, {t.month}, {t.day}, {time.hour}, {time.minute}{second}{fraction})"

/-- The written form of a list of written items. -/
def listText (items : List String) : String :=
  "[" ++ Text.join ", " items ++ "]"

mutual

/-- The written form of a datum inside a list or mapping. -/
def quoted : Datum → Except NumberError String
  | null => .ok "None"
  | bool b false => .ok (if b then "True" else "False")
  | bool b true => .ok (if b then "1" else "0")
  | int n => writeInt n
  | float x => .ok x.text
  | text s => .ok (Text.quoted s)
  | bytes bs => .ok (Text.quotedBytes bs)
  | timestamp t => .ok (quotedTimestamp t)
  | tagged _ s => .ok s
  | list _ items => do return listText (← quotedItems items)
  | map _ es => do return "\x7b" ++ Text.join ", " (← quotedEntries ": " es) ++ "\x7d"
  | set ms => do return "set(odict_keys(" ++ listText (← quotedItems ms) ++ "))"
  | pair a b => do
    let first ← quoted a
    let second ← quoted b
    return "(" ++ first ++ ", " ++ second ++ ")"
  | endless => .ok "..."
termination_by structural d => d

/-- The written forms of the items of a list. -/
def quotedItems : List Datum → Except NumberError (List String)
  | [] => .ok []
  | x :: xs => do
    let first ← quoted x
    let rest ← quotedItems xs
    return first :: rest
termination_by structural xs => xs

/-- The written forms of the entries of a mapping. -/
def quotedEntries (between : String) : List (Datum × Datum) → Except NumberError (List String)
  | [] => .ok []
  | (k, v) :: es => do
    let key ← quoted k
    let value ← quoted v
    let rest ← quotedEntries between es
    return (key ++ between ++ value) :: rest
termination_by structural es => es

end

/-- The written form of a datum on its own. -/
def written : Datum → Except NumberError String
  | text s => .ok s
  | timestamp t => .ok (t.text " ")
  | d => d.quoted

/-- The text of a key: lists and mappings are written like those that cannot change. -/
def keyText : Datum → Except NumberError String
  | list _ [item] => do return "(" ++ (← item.quoted) ++ ",)"
  | list _ items => do return "(" ++ Text.join ", " (← quotedItems items) ++ ")"
  | map _ es => do
    let pairs := (← quotedEntries ", " es).map fun entry => "(" ++ entry ++ ")"
    return "ordereddict(" ++ listText pairs ++ ")"
  | d => d.written

/-! ## Nesting -/

mutual

/-- The most lists and mappings around a part of a datum. Members of sets and pairs are no parts. -/
def nesting : Datum → Nat
  | list _ items => nestingOfItems items
  | map _ es => nestingOfEntries es
  | null | bool _ _ | int _ | float _ | text _ | bytes _ | timestamp _ | tagged _ _ | set _
  | pair _ _ | endless => 0
termination_by structural d => d

/-- The most lists and mappings around a part of a list with these items. -/
def nestingOfItems : List Datum → Nat
  | [] => 0
  | x :: xs => max (nesting x + 1) (nestingOfItems xs)
termination_by structural xs => xs

/-- The most lists and mappings around a part of a mapping with these entries. -/
def nestingOfEntries : List (Datum × Datum) → Nat
  | [] => 0
  | (_, v) :: es => max (nesting v + 1) (nestingOfEntries es)
termination_by structural es => es

end

/-! ## Values -/

/-- A tag that begins with a single exclamation mark. -/
def isLocal (tag : String) : Bool :=
  match tag.toList with
  | '!' :: '!' :: _ => false
  | '!' :: _ => true
  | _ => false

/-- The key that a tag is short for. -/
def longForm (tag : String) : String :=
  let name := String.ofList (tag.toList.dropWhile (· == '!'))
  if name = "Ref" || name = "Condition" then name else "Fn::" ++ name

/-- The mapping that a tag on a value is short for. -/
def intrinsic (tag : String) (v : Value) : Value :=
  .map [(longForm tag, v)]

/-- A value under the tag of a collection; only local tags mean anything. -/
def underTag (tag? : Option String) (v : Value) : Value :=
  match tag? with
  | some tag => if isLocal tag then intrinsic tag v else v
  | none => v

/-- The tag of a scalar if it is local, and the word for a tag otherwise. -/
def scalarTag (tag : String) : String :=
  if isLocal tag then tag else "!Tag"

mutual

/-- The value of a document that a datum becomes. Keys become text, dates too.

The recursion has no limit of its own: a reader asks for `nesting` first, and a datum with itself
inside is too deep for any limit. Sets and pairs are no plain values, and readers hand them on as
they are. Here their members become values as well, since a value can hold nothing else. -/
def toValue : Datum → Except ReadError Value
  | null => .ok .null
  | bool b _ => .ok (.bool b)
  | int n => .ok (.int n)
  | float x => .ok (.float x)
  | text s => .ok (.str s)
  | bytes bs => .ok (.bytes bs)
  | timestamp t => .ok (.str (t.text "T"))
  | tagged tag s => .ok (intrinsic (scalarTag tag) (.str s))
  | list tag? items => do return underTag tag? (.list (← toValues items))
  | map tag? es => do return underTag tag? (.map (Entries.ofList (← toEntries es)))
  | set ms => do return .set (← toValues ms)
  | pair a b => do
    let first ← toValue a
    let second ← toValue b
    return .pair first second
  | endless => .error .tooDeep
termination_by structural d => d

/-- The values of the items of a list. -/
def toValues : List Datum → Except ReadError (List Value)
  | [] => .ok []
  | x :: xs => do
    let first ← toValue x
    let rest ← toValues xs
    return first :: rest
termination_by structural xs => xs

/-- The entries of a mapping with text keys. -/
def toEntries : List (Datum × Datum) → Except ReadError (List (String × Value))
  | [] => .ok []
  | (k, v) :: es => do
    let key ← k.keyText.mapError fun e => .fault (.number e)
    let value ← toValue v
    let rest ← toEntries es
    return (key, value) :: rest
termination_by structural es => es

end

end Datum

end Schematic.Yaml
