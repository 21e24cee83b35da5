import Schematic.Proofs.Hcl.Written
import Schematic.Proofs.Text.Word
import Schematic.Text.Distinct

/-!
# Resources and how they are written

Resources with attributes and tags as data of their own, the text they are written as, and the
tree that they stand for. The parts carry what makes them writable: names are made of the
characters of names, and a text in quotes holds nothing that would end it.

A resource is written as a block with one attribute on a line and its tags in a block of their
own. The tree has the resources by type and name, both in the order of first appearance, and in
each of them the single values, then the list of dependencies, then the tags.

## Main definitions

- `Identifier`, `Address`, `Expr`, `Attribute`, `Tag`, `Resource` — the data
- `Resource.lines`, `source` — the text of resources
- `Resource.entries`, `tree` — the tree of resources
-/

namespace Schematic.Hcl

open Text (unlines)

/-! ## Names and values -/

/-- The name of an attribute. -/
structure Identifier where
  first : Char
  rest : List Char
  isIdentStart_first : Text.isIdentStart first = true
  isIdentRest_rest : ∀ c ∈ rest, Text.isIdentRest c = true

def Identifier.chars (name : Identifier) : List Char :=
  name.first :: name.rest

/-- A name and what it leads to, with dots between the parts. -/
structure Address where
  head : Identifier
  parts : List (List Char)
  parts_ne_nil : parts ≠ []
  isIdentRest_parts : ∀ part ∈ parts, ∀ c ∈ part, Text.isIdentRest c = true

def Address.chars (address : Address) : List Char :=
  address.head.chars ++ address.parts.flatMap ('.' :: ·)

/-- Addresses with commas between them. -/
def addressList (addresses : List Address) : List Char :=
  ((addresses.map Address.chars).intersperse ", ".toList).flatten

/-- Text that may stand between quotes on one line. -/
def IsLineText (cs : List Char) : Prop :=
  ∀ c ∈ cs, c ≠ '"' ∧ c ≠ '\\' ∧ Text.isLineBreak c = false

instance (cs : List Char) : Decidable (IsLineText cs) :=
  inferInstanceAs (Decidable (∀ c ∈ cs, c ≠ '"' ∧ c ≠ '\\' ∧ Text.isLineBreak c = false))

/-- A single value. -/
inductive Expr where
  | text (cs : List Char) (h : IsLineText cs)
  | bool (b : Bool)
  | int (n : Int) (h : n.natAbs < Nat.pow 10 digitLimit)
  | reference (address : Address)

namespace Expr

/-- A value as it is written. -/
def chars : Expr → List Char
  | text cs _ => inQuotes cs
  | bool true => "true".toList
  | bool false => "false".toList
  | int n _ => (toString n).toList
  | reference address => address.chars

/-- What a value stands for: a reference for its interpolation. -/
def value : Expr → Value
  | text cs _ => .str (String.ofList cs)
  | bool b => .bool b
  | int n _ => .int n
  | reference address => .str (String.ofList ('$' :: '{' :: address.chars ++ ['}']))

end Expr

/-! ## Attributes -/

/-- A named value, or the list of addresses that a resource depends on. -/
inductive Attribute where
  | single (name : Identifier) (expr : Expr)
  | dependsOn (addresses : List Address)

namespace Attribute

def name : Attribute → List Char
  | single name _ => name.chars
  | dependsOn _ => "depends_on".toList

def isSingle : Attribute → Bool
  | single _ _ => true
  | dependsOn _ => false

/-- What stands behind the equals sign. -/
def chars : Attribute → List Char
  | single _ expr => expr.chars
  | dependsOn addresses => '[' :: (addressList addresses ++ [']'])

/-- An attribute as a line. -/
def line (a : Attribute) : List Char :=
  ' ' :: ' ' :: (a.name ++ ' ' :: '=' :: ' ' :: a.chars)

/-- What an attribute stands for. -/
def value : Attribute → Value
  | single _ expr => expr.value
  | dependsOn addresses =>
    .list (addresses.map fun address => .str (String.ofList address.chars))

def entry (a : Attribute) : String × Value :=
  (String.ofList a.name, a.value)

end Attribute

/-! ## Tags -/

/-- A tag with its name and text. -/
structure Tag where
  first : Char
  rest : List Char
  text : List Char
  isIdentStart_first : Text.isIdentStart first = true
  isTagRest_rest : ∀ c ∈ rest, isTagRest c = true
  isQuotable_text : IsQuotable text

namespace Tag

def name (tag : Tag) : List Char :=
  tag.first :: tag.rest

/-- A tag as a line. -/
def line (tag : Tag) : List Char :=
  "    ".toList ++ (tag.name ++ ' ' :: '=' :: ' ' :: inQuotes tag.text)

def entry (tag : Tag) : String × Value :=
  (String.ofList tag.name, .str (String.ofList tag.text))

end Tag

/-! ## Resources -/

/-- A resource with its attributes and perhaps tags. -/
structure Resource where
  type : List Char
  name : List Char
  attributes : List Attribute
  tags : Option (List Tag)
  isQuotable_type : IsQuotable type
  isQuotable_name : IsQuotable name
  nodup_names : (attributes.map Attribute.name).Nodup
  tags_not_mem_names : "tags".toList ∉ attributes.map Attribute.name
  nodup_tags : ∀ ts, tags = some ts → (ts.map Tag.name).Nodup

namespace Resource

variable (r : Resource)

/-- The line that opens the block of a resource. -/
def headLine : List Char :=
  "resource".toList ++ ' ' :: (inQuotes r.type ++ ' ' :: (inQuotes r.name ++ [' ', '{']))

/-- The lines of the tags. -/
def tagLines : List (List Char) :=
  match r.tags with
  | none => []
  | some tags => "  tags = \x7b".toList :: (tags.map Tag.line ++ ["  \x7d".toList])

/-- The lines between the braces. -/
def bodyLines : List (List Char) :=
  r.attributes.map Attribute.line ++ r.tagLines

def lines : List (List Char) :=
  r.headLine :: (r.bodyLines ++ ["\x7d".toList])

/-- The attributes that a resource stands for. -/
def entries : Entries Value :=
  (r.attributes.filter Attribute.isSingle).map Attribute.entry ++
    (r.attributes.filter fun a => !a.isSingle).map Attribute.entry ++
    match r.tags with
    | none => []
    | some tags => [("tags", .map (tags.map Tag.entry))]

end Resource

/-- The text of resources. -/
def source (rs : List Resource) : List Char :=
  unlines (rs.flatMap Resource.lines)

/-- Resources by type and, within each type, by name. -/
def byTypeAndName (rs : List Resource) : Entries Value :=
  (Text.distinct (rs.map fun r => String.ofList r.type)).map fun type =>
    (type, .map ((rs.filter fun r => String.ofList r.type == type).map fun r =>
      (String.ofList r.name, .map r.entries)))

/-- The tree of resources. -/
def tree (rs : List Resource) : Entries Value :=
  if rs.isEmpty then [] else [("resource", .map (byTypeAndName rs))]

end Schematic.Hcl
