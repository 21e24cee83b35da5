import Schematic.Yaml.Fold

/-!
# Plain scalars

A plain scalar is made of words. A word ends at a space, at a colon that a space follows, and
inside flow collections at their indicators. Words are joined over blanks and line breaks until a
comment, a document mark, or a line that is indented too little.

## Main definitions

- `Plain.word` — the characters up to the end of a word
- `Plain.Gap`, `Plain.gap` — the space after a word
- `Plain.read` — a plain scalar
-/

namespace Schematic.Yaml.Plain

/-- Where a plain scalar stands. -/
structure Context where
  inFlow : Bool
  /-- The minor version of the language. -/
  version : Nat
  /-- Lines that are indented less than this end the scalar, outside flow collections. -/
  margin : Nat

/-- Whether a word goes on with a character, given the one that follows it. -/
def continues (context : Context) (c next : Char) : Bool :=
  if c == ':' then !isSpaceOrEnd next
  else if c == '?' then context.version != 1 || !context.inFlow
  else !(isSpaceOrEnd c || context.inFlow && ",[]\x7b\x7d".toList.contains c)

/-- The characters up to the end of a word. -/
def word (context : Context) : List Char → List Char
  | [] => []
  | c :: rest =>
    if continues context c (rest.headD endMark) then c :: word context rest else []

/-- Space after a word. -/
structure Gap where
  /-- What it stands for if another word follows; nothing if none can follow. -/
  text : List Char
  /-- Whether it holds a line break. -/
  crossesLine : Bool
  after : Cursor

/-- Line breaks and blanks after a first line break: the breaks, unless there is a document mark at
the start of a line. -/
def breaks : Nat → Cursor → Option (List Char) × Cursor
  | 0, c => (some [], c)
  | fuel + 1, c =>
    if c.atDocumentMark then (none, c)
    else
      let c := c.skipWhile (· == ' ')
      match c.lineBreak? with
      | none => (some [], c)
      | some (br, c) =>
        let (more, c) := breaks fuel c
        (more.map (br :: ·), c)

/-- The space after a word. -/
def gap (c : Cursor) : Gap :=
  let (blanks, c) := c.span (· == ' ')
  match c.lineBreak? with
  | none => ⟨blanks, false, c⟩
  | some (br, c) =>
    let (more, c) := breaks c.bound c
    ⟨(more.map (folded br)).getD [], true, c⟩

/-- A plain scalar, or the rest of one. -/
structure Scalar where
  text : List Char
  /-- The end of the last word. -/
  stop : Mark
  /-- Whether the space after the last word holds a line break. -/
  crossesLine : Bool
  after : Cursor

/-- The rest of a plain scalar behind a word that ends at `stop` and the space after it. -/
def words (context : Context) (stop : Mark) : Nat → Gap → Scalar
  | 0, space => ⟨[], stop, space.crossesLine, space.after⟩
  | fuel + 1, space =>
    let c := space.after
    let text := word context c.rest
    let stops :=
      space.text.isEmpty || c.peek == '#' || !context.inFlow && c.column < context.margin ||
        text.isEmpty
    if stops then ⟨[], stop, space.crossesLine, c⟩
    else
      let c := c.skip text.length
      let more := words context c.mark fuel (gap c)
      { more with text := space.text ++ text ++ more.text }

/-- A plain scalar that begins at the cursor. -/
def read (context : Context) (c : Cursor) : Scalar :=
  let text := word context c.rest
  let c := c.skip text.length
  let more := words context c.mark c.bound (gap c)
  { more with text := text ++ more.text }

end Schematic.Yaml.Plain
