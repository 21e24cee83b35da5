import Schematic.Hcl.Block
import Schematic.Hcl.Body
import Schematic.Number.Reading
import Schematic.Text.Search
import Schematic.Value.Basic

/-!
# Attributes

The attributes of a body that a diagram draws: quoted strings, booleans, numbers, dotted
references, lists of these, and tags. A reference becomes the interpolation of itself; the
addresses in `depends_on` stay as they are. Expressions of any other form have no value here.

## Main definitions

- `unquote?`, `scalar`, `listItems` — the values of written expressions
- `listsFrom`, `tagsFrom` — the lists and tags of a text
- `attributes` — all attributes of a body
-/

namespace Schematic.Hcl

/-! ## Expressions -/

/-- The characters of a string literal behind its opening quote, if its closing quote ends the
text. Escapes stay as they are written. -/
def unquoteRest : List Char → Option (List Char)
  | ['"'] => some []
  | '"' :: _ => none
  | '\\' :: c :: rest => if c = '\n' then none else (unquoteRest rest).map ('\\' :: c :: ·)
  | c :: rest => if c = '\n' || c = '\\' then none else (unquoteRest rest).map (c :: ·)
  | [] => none

/-- The content of a text that is one string literal. -/
def unquote? : List Char → Option (List Char)
  | '"' :: rest => unquoteRest rest
  | _ => none

/-- Whether a text is a decimal number: digits, and perhaps a point with digits. -/
def isNumber (cs : List Char) : Bool :=
  let digits := match cs with
    | '-' :: rest => rest
    | cs => cs
  let whole := digits.takeWhile Text.isDecimalDigit
  match digits.dropWhile Text.isDecimalDigit with
  | [] => !whole.isEmpty
  | '.' :: fraction => !whole.isEmpty && !fraction.isEmpty && fraction.all Text.isDecimalDigit
  | _ => false

/-- A character of a reference behind the first. -/
def isReferenceRest (c : Char) : Bool :=
  Text.isWord c || c == '.' || c == '[' || c == ']' || c == '*' || c == '-'

/-- Whether a text is a reference without blanks, such as `a.b[0].c`. -/
def isReference : List Char → Bool
  | c :: rest => Text.isIdentStart c && rest.all isReferenceRest
  | [] => false

/-- The interpolation of a reference. -/
def interpolated (reference : List Char) : String :=
  String.ofList ('$' :: '{' :: reference ++ ['}'])

/-- The value of a written expression, if it is of a form that is understood. -/
def scalar (raw : List Char) : Except NumberError (Option Value) :=
  match unquote? raw with
  | some text => .ok (some (.str (String.ofList text)))
  | none =>
    if raw = "true".toList then .ok (some (.bool true))
    else if raw = "false".toList then .ok (some (.bool false))
    else if isNumber raw then
      let text := String.ofList raw
      if raw.contains '.' then (readDecimal text).map fun x => some (.float x)
      else (readInt 10 text).map fun n => some (.int n)
    -- A single word may be anything; with a dot in it, it refers to something.
    else if isReference raw && raw.contains '.' then .ok (some (.str (interpolated raw)))
    else .ok none

/-- The value of one item of a list. Among addresses a reference stands for itself. -/
def listItem (addresses : Bool) (raw : List Char) : Except NumberError (Option Value) :=
  if raw.isEmpty then .ok none
  else if addresses && isReference raw then .ok (some (.str (String.ofList raw)))
  else scalar raw

/-- The values of the items of a list that are understood. -/
def listItems (addresses : Bool) (raw : List Char) : Except NumberError (List Value) := do
  let items ← (Text.splitAtChar ',' raw).mapM fun part => listItem addresses (Text.trim part)
  return items.filterMap id

/-! ## Lists -/

/-- The start of a list at the front of a line: the key and what follows the bracket. -/
def listStart? (cs : List Char) : Option (List Char × List Char) :=
  match identifier? (cs.dropWhile isGap) with
  | none => none
  | some (key, rest) =>
    match rest.dropWhile isGap with
    | '=' :: rest =>
      match rest.dropWhile isGap with
      | '[' :: rest => some (key, rest)
      | _ => none
    | _ => none

/-- The lists of a text, by key and with what stands between the brackets. A list that is not
closed ends the search. `skipped` counts characters that belong to the list found last. -/
def listsFrom (atLineStart : Bool) (skipped : Nat) : List Char → List (List Char × List Char)
  | [] => []
  | c :: rest =>
    match skipped with
    | skipped + 1 => listsFrom (c == '\n') skipped rest
    | 0 =>
      match if atLineStart then listStart? (c :: rest) else none with
      | none => listsFrom (c == '\n') 0 rest
      | some (key, inside) =>
        -- The list goes to the first closing bracket, over lines if need be.
        match Text.cutAtChar? ']' inside with
        | none => []
        | some (content, left) =>
          (key, content) :: listsFrom (c == '\n') (rest.length - left.length) rest

/-! ## Tags -/

/-- A character of a tag name behind the first. -/
def isTagRest (c : Char) : Bool :=
  Text.isWord c || c == '.' || c == ':' || c == '/' || c == '-'

/-- Without a quote, if there is one in front. -/
def dropQuote : List Char → List Char
  | '"' :: rest => rest
  | cs => cs

/-- A tag at the front of a text, with or without quotes around its name: name, value, and what
follows. -/
def tag? (cs : List Char) : Option (List Char × List Char × List Char) :=
  match dropQuote cs with
  | c :: rest =>
    if !Text.isIdentStart c then none
    else
      match (dropQuote (rest.dropWhile isTagRest)).dropWhile isGap with
      | '=' :: after =>
        match after.dropWhile isGap with
        | '"' :: quoted =>
          let value := quoted.takeWhile fun c => c != '"' && c != '\n'
          match quoted.dropWhile fun c => c != '"' && c != '\n' with
          | '"' :: left => some (c :: rest.takeWhile isTagRest, value, left)
          | _ => none
        | _ => none
      | _ => none
  | [] => none

/-- Whether a tag may start behind a character. -/
def mayPrecedeTag (c : Char) : Bool :=
  !(isTagRest c || c == '"')

/-- The tags of a text from left to right. `free` says whether a tag may start here, and
`skipped` counts characters that belong to the tag found last. -/
def tagsFrom (free : Bool) (skipped : Nat) : List Char → List (List Char × List Char)
  | [] => []
  | c :: rest =>
    match skipped with
    | skipped + 1 => tagsFrom (mayPrecedeTag c) skipped rest
    | 0 =>
      match if free then tag? (c :: rest) else none with
      | none => tagsFrom (mayPrecedeTag c) 0 rest
      | some (name, value, left) =>
        (name, value) :: tagsFrom (mayPrecedeTag c) (rest.length - left.length) rest

/-- The tags of a text as a mapping. -/
def tags (inner : List Char) : Value :=
  .map (Entries.ofList ((tagsFrom true 0 inner).map fun (name, value) =>
    (String.ofList name, .str (String.ofList value))))

/-! ## All attributes -/

/-- The keys whose lists hold addresses. -/
def dependsOn : List Char := "depends_on".toList

/-- Put the assigned values that are understood under their keys. -/
def insertScalars (attributes : Entries Value) (assigned : List (List Char × List Char)) :
    Except NumberError (Entries Value) :=
  assigned.foldlM (fun attributes (key, raw) => do
    match ← scalar raw with
    | some value => return attributes.insert (String.ofList key) value
    | none => return attributes) attributes

/-- Put lists under their keys. -/
def insertLists (attributes : Entries Value) (lists : List (List Char × List Char)) :
    Except NumberError (Entries Value) :=
  lists.foldlM (fun attributes (key, content) => do
    let items ← listItems (key == dependsOn) content
    return attributes.insert (String.ofList key) (.list items)) attributes

/-- Put the tags of every nested block of that name under their key. -/
def insertTags (attributes : Entries Value) (nested : List Nested) : Entries Value :=
  nested.foldl (fun attributes block =>
    if block.name = "tags".toList then attributes.insert "tags" (tags block.inner)
    else attributes) attributes

/-- The attributes of a body: assigned scalars, then lists, then tags. -/
def attributes (body : List Char) : Except NumberError (Entries Value) := do
  let parts := split body
  -- A key that is assigned several times keeps its place and takes the last value.
  let scalars ← insertScalars [] ((Text.lines parts.top).filterMap assignment?)
  let lists ← insertLists scalars (listsFrom true 0 parts.top)
  return insertTags lists parts.nested

end Schematic.Hcl
