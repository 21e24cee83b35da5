import Schematic.Entries
import Schematic.Number.Binary64

/-!
# Values of a document

The tree that a document denotes, whatever text it was written in: scalars, lists and mappings
with text keys in the order of the document. Besides these a document can hold byte strings, sets
and pairs, which no diagram draws but which keep their place in the tree.

## Main definitions

- `Value` — the trees
- `Value.entries`, `Value.items`, `Value.get` — total views that never fail on a wrong shape
- `Value.isTruthy` — whether a value counts as present
- `Value.strings` — the text leaves
-/

namespace Schematic

/-- A document tree. -/
inductive Value where
  | null
  | bool (b : Bool)
  | int (n : Int)
  | float (x : Binary64)
  | str (s : String)
  | list (items : List Value)
  | map (entries : List (String × Value))
  | bytes (bytes : List UInt8)
  | set (members : List Value)
  | pair (first second : Value)
deriving Inhabited

namespace Value

/-! ## Views -/

/-- The entries of a mapping; nothing for any other value. -/
def entries : Value → Entries Value
  | map es => es
  | _ => []

/-- The items of a list; a null has none, and any other value is its own single item. -/
def items : Value → List Value
  | null => []
  | list xs => xs
  | v => [v]

/-- The items of a list; nothing for any other value. -/
def listed : Value → List Value
  | list xs => xs
  | _ => []

/-- The value under a key of a mapping, null where there is none. -/
def get (v : Value) (key : String) : Value :=
  (v.entries.get? key).getD null

/-- The entries of the mapping under a key. -/
def getEntries (v : Value) (key : String) : Entries Value :=
  (v.get key).entries

/-- The items of the list under a key. -/
def getListed (v : Value) (key : String) : List Value :=
  (v.get key).listed

/-- The value at the end of a path of keys; null as soon as a step is missing. -/
def path (v : Value) (keys : List String) : Value :=
  keys.foldl get v

def isMap : Value → Bool
  | map _ => true
  | _ => false

/-- The text of a text value. -/
def str? : Value → Option String
  | str s => some s
  | _ => none

/-- Whether a value counts as present: not null, false, zero or empty. -/
def isTruthy : Value → Bool
  | null => false
  | bool b => b
  | int n => n != 0
  | float x => !x.isZero
  | str s => s != ""
  | list xs => !xs.isEmpty
  | map es => !es.isEmpty
  | bytes bs => !bs.isEmpty
  | set ms => !ms.isEmpty
  | pair _ _ => true

/-! ## Leaves -/

mutual

/-- The text leaves of a tree from left to right; keys are not leaves. -/
def strings : Value → List String
  | str s => [s]
  | list xs => stringsOfList xs
  | map es => stringsOfEntries es
  | null | bool _ | int _ | float _ | bytes _ | set _ | pair _ _ => []
termination_by structural v => v

/-- The text leaves of the items of a list. -/
def stringsOfList : List Value → List String
  | [] => []
  | x :: xs => strings x ++ stringsOfList xs
termination_by structural xs => xs

/-- The text leaves of the values of a mapping. -/
def stringsOfEntries : List (String × Value) → List String
  | [] => []
  | (_, v) :: es => strings v ++ stringsOfEntries es
termination_by structural es => es

end

/-! ## Plain trees -/

mutual

/-- A tree of nulls, booleans, numbers, text, lists and mappings only. -/
def isPlain : Value → Bool
  | null | bool _ | int _ | float _ | str _ => true
  | list xs => areAllPlain xs
  | map es => haveAllPlain es
  | bytes _ | set _ | pair _ _ => false
termination_by structural v => v

/-- Every item of a list is a plain tree. -/
def areAllPlain : List Value → Bool
  | [] => true
  | x :: xs => isPlain x && areAllPlain xs
termination_by structural xs => xs

/-- Every value of a mapping is a plain tree. -/
def haveAllPlain : List (String × Value) → Bool
  | [] => true
  | (_, v) :: es => isPlain v && haveAllPlain es
termination_by structural es => es

end

end Value

end Schematic
