import Schematic.Hcl.Brace
import Schematic.Text.Blank
import Schematic.Text.Word

/-!
# Block bodies

A body consists of the text at its top level and of nested blocks. In the top-level text comments
are left out and each nested block is drawn together to a pair of braces. A block that is never
closed ends the body.

## Main definitions

- `Nested`, `Split`, `split` — the nested blocks and the top-level text of a body
- `assignment?`, `assignments` — the assignments that stand on a line of their own
-/

namespace Schematic.Hcl

open Lexeme

/-! ## Identifiers -/

/-- An identifier at the front of a text, and what follows. -/
def identifier? (cs : List Char) : Option (List Char × List Char) :=
  match cs with
  | c :: rest =>
    if Text.isIdentStart c then
      some (c :: rest.takeWhile Text.isIdentRest, rest.dropWhile Text.isIdentRest)
    else none
  | [] => none

/-! ## Nested blocks -/

/-- A nested block: the first identifier on the line that opens it, and its inner text. -/
structure Nested where
  name : List Char
  inner : List Char
deriving DecidableEq, Repr

/-- A body taken apart. -/
structure Split where
  top : List Char
  nested : List Nested
deriving DecidableEq, Repr

/-- The first identifier of a line, given by what stands on it so far, the last character
first. -/
def nameOnLine (before : List Char) : List Char :=
  let line := (before.takeWhile (· != '\n')).reverse
  match identifier? (line.dropWhile fun c => c == ' ' || c == '\t') with
  | some (name, _) => name
  | none => []

/-- Take lexemes apart that stand behind the characters `before`, the last first. -/
def splitLexemes (before : List Char) (ls : List Lexeme) : Split :=
  match ls with
  | [] => ⟨[], []⟩
  -- Comments are left out, but they stand on their line.
  | comment text :: rest => splitLexemes (text.reverse ++ before) rest
  | openBrace :: rest =>
    match _h : cutBlock? 0 rest with
    -- What is behind a brace that is not closed is lost.
    | none => ⟨[], []⟩
    | some (inner, after) =>
      let text := inner.flatMap Lexeme.text
      let more := splitLexemes ('}' :: text.reverse ++ '{' :: before) after
      ⟨'{' :: '}' :: more.top, ⟨nameOnLine before, text⟩ :: more.nested⟩
  | lexeme :: rest =>
    let more := splitLexemes (lexeme.text.reverse ++ before) rest
    ⟨lexeme.text ++ more.top, more.nested⟩
termination_by ls.length
decreasing_by
  · simp
  · have := length_lt_of_cutBlock? _h
    simp
    omega
  · simp

/-- Take a body apart. -/
def split (body : List Char) : Split :=
  splitLexemes [] (Lexeme.ofText body)

/-! ## Assignments -/

/-- A line that starts with an identifier and an equals sign: the identifier and the rest of the
line, trimmed. -/
def assignment? (line : List Char) : Option (List Char × List Char) :=
  match identifier? (Text.trimLeft line) with
  | none => none
  | some (name, rest) =>
    match Text.trimLeft rest with
    | '=' :: value => some (name, Text.trim value)
    | _ => none

/-- The assignments at the top level of a body that stand on one line. -/
def assignments (body : List Char) : List (List Char × List Char) :=
  (Text.lines (split body).top).filterMap assignment?

end Schematic.Hcl
