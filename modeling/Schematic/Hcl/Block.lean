import Schematic.Hcl.Brace

/-!
# Blocks

A block is a header at the start of a line, made of a keyword and quoted labels, and a body in
braces. Blocks that open inside a block found before are part of its body.

## Main definitions

- `Header`, `headers` — the headers of a keyword, wherever they stand
- `Block`, `blocks` — the closed blocks of a keyword, none inside another
-/

namespace Schematic.Hcl

/-- Blank space within a line. -/
def isGap (c : Char) : Bool :=
  c == ' ' || c == '\t'

/-! ## Headers -/

mutual

/-- Quoted labels and the brace behind them: the labels and what follows the brace. -/
def labels? : List Char → Option (List (List Char) × List Char)
  | '{' :: rest => some ([], rest)
  | '"' :: rest => labelRest? [] rest
  | c :: rest => if isGap c then labels? rest else none
  | [] => none
termination_by structural cs => cs

/-- The rest of a label behind its characters `done`, the last first, and the labels after it. -/
def labelRest? (done : List Char) : List Char → Option (List (List Char) × List Char)
  | '"' :: rest => (labels? rest).map fun (more, left) => (done.reverse :: more, left)
  | '\n' :: _ => none
  | c :: rest => labelRest? (c :: done) rest
  | [] => none
termination_by structural cs => cs

end

/-- A header at the front of a text: its labels and what follows its brace. Gaps in front of the
keyword are skipped, as many as the keyword leaves. -/
def header? (keyword : List Char) (cs : List Char) : Option (List (List Char) × List Char) :=
  let here := (keyword.isPrefixOf? cs).bind labels?
  match cs with
  -- As many gaps as possible are skipped first, as a keyword could begin with one.
  | c :: rest => if isGap c then (header? keyword rest).or here else here
  | [] => here

/-- A header in a text, by position. -/
structure Header where
  /-- Where the line of the header starts. -/
  offset : Nat
  labels : List String
  /-- Where its brace is. -/
  brace : Nat
deriving DecidableEq, Repr

/-- What a step through the text finds: headers only where a line starts. -/
def headerAt? (keyword : List Char) (atLineStart : Bool) (cs : List Char) :
    Option (List (List Char) × List Char) :=
  if atLineStart then header? keyword cs else none

/-- The headers of a keyword in a text that starts at `offset`. The characters of a header that
was found are passed over: `skipped` counts those that are left of it. -/
def headersFrom (keyword : List Char) (offset : Nat) (atLineStart : Bool) (skipped : Nat) :
    List Char → List Header
  | [] => []
  | c :: rest =>
    match skipped with
    | skipped + 1 => headersFrom keyword (offset + 1) (c == '\n') skipped rest
    | 0 =>
      match headerAt? keyword atLineStart (c :: rest) with
      -- The brace is the last character of the header.
      | some (labels, left) =>
        let length := rest.length + 1 - left.length
        ⟨offset, labels.map String.ofList, offset + length - 1⟩ ::
          headersFrom keyword (offset + 1) (c == '\n') (length - 1) rest
      | none => headersFrom keyword (offset + 1) (c == '\n') 0 rest

/-- The headers of a keyword in a text, in the order of the text. -/
def headers (keyword cs : List Char) : List Header :=
  headersFrom keyword 0 true 0 cs

/-! ## Closed blocks -/

/-- A closed block with its header and body. -/
structure Block where
  keyword : String
  labels : List String
  body : List Char
  /-- Where the line of the header starts. -/
  offset : Nat
deriving DecidableEq, Repr

/-- The closed blocks of headers that open behind `covered`, the end of the block before. -/
def closedBlocks (keyword : String) (cs : List Char) (pairs : List (Nat × Nat)) (covered : Nat) :
    List Header → List Block
  | [] => []
  | header :: rest =>
    -- A header inside the block before is part of its body.
    if header.brace < covered then closedBlocks keyword cs pairs covered rest
    else
      match closingOf? pairs header.brace with
      -- A block that is never closed is left out, and those inside of it are looked at.
      | none => closedBlocks keyword cs pairs covered rest
      | some close =>
        let body := (cs.drop (header.brace + 1)).take (close - (header.brace + 1))
        ⟨keyword, header.labels, body, header.offset⟩ ::
          closedBlocks keyword cs pairs close rest

/-- The closed blocks of a keyword in a text, none inside another. -/
def blocks (keyword : String) (cs : List Char) : List Block :=
  closedBlocks keyword cs (bracePairs cs) 0 (headers keyword.toList cs)

end Schematic.Hcl
