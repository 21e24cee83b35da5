import Schematic.Proofs.Hcl.Comment
import Schematic.Proofs.Hcl.Matching

/-!
# What a block encloses

The attributes of a body do not depend on what its nested blocks enclose, the tags apart. A block is
drawn together to its two braces before anything is read from the top-level text, and it takes its
name from the line in front of its brace. With a line feed behind its closing brace it shares no
line with any later block, so the names of these do not depend on it either.

## Main definitions

- `IsTopBlock` — a block at the top level of a body, with what is in front of it and behind it

## Main statements

- `splitLexemes_append` — a body is taken apart piece by piece
- `IsTopBlock.exists_split_eq` — a body with such a block, taken apart
- `attributes_congr_inner` — the attributes of a body with another inner text of a block
-/

namespace Schematic.Hcl

open Lexeme

variable {before inner after rest : List Char}

/-! ## Piece by piece -/

/-- A body whose blocks are closed up to some place is taken apart up to there and from there on. -/
theorem splitLexemes_append {before : List Char} {ls : List Lexeme}
    (h : openBlock? before ls = none) (rest : List Lexeme) : splitLexemes before (ls ++ rest) =
      ⟨(splitLexemes before ls).top ++
          (splitLexemes ((ls.flatMap text).reverse ++ before) rest).top,
        (splitLexemes before ls).nested ++
          (splitLexemes ((ls.flatMap text).reverse ++ before) rest).nested⟩ := by
  induction ls using split_induction generalizing before with
  | nil =>
    rw [splitLexemes]
    rfl
  | comment text ls ih =>
    rw [openBlock?_of_ne (by simp)] at h
    rw [List.cons_append, splitLexemes_comment, splitLexemes_comment]
    simpa [Lexeme.text] using ih h
  | unclosed ls hcut =>
    rw [openBlock?_open hcut] at h
    cases h
  | block ls inner after hcut ih =>
    rw [openBlock?_block hcut] at h
    rw [List.cons_append, splitLexemes_block (cutBlock?_append_of_some hcut rest),
      splitLexemes_block hcut, ih h, ← append_of_cutBlock? hcut]
    simp [text]
  | kept l ls hcomment hopen ih =>
    rw [openBlock?_of_ne hopen] at h
    rw [List.cons_append, splitLexemes_of_ne hcomment hopen, splitLexemes_of_ne hcomment hopen,
      ih h]
    simp

/-- If each brace among lexemes is closed there, no block is open behind them. -/
theorem openBlock?_eq_none {ls : List Lexeme} (before : List Char)
    (h : ∀ front back, ls = front ++ openBrace :: back → cutBlock? 0 back ≠ none) :
    openBlock? before ls = none := by
  have htail {l : Lexeme} {rest : List Lexeme} (h : ∀ front back,
      l :: rest = front ++ openBrace :: back → cutBlock? 0 back ≠ none) :
      ∀ front back, rest = front ++ openBrace :: back → cutBlock? 0 back ≠ none :=
    fun front back heq => h (l :: front) back (congrArg (l :: ·) heq)
  induction ls using split_induction generalizing before with
  | nil => rw [openBlock?]
  | comment text rest ih =>
    rw [openBlock?_of_ne (by simp)]
    exact ih _ (htail h)
  | unclosed rest hcut => exact absurd hcut (h [] rest rfl)
  | block rest inner after hcut ih =>
    rw [openBlock?_block hcut]
    refine ih _ fun front back heq => h (openBrace :: (inner ++ closeBrace :: front)) back ?_
    rw [← append_of_cutBlock? hcut, heq]
    simp
  | kept l rest _ hopen ih =>
    rw [openBlock?_of_ne hopen]
    exact ih _ (htail h)

/-! ## A block in a body -/

/-- A body with a block in it. -/
def enclose (before inner after : List Char) : List Char :=
  before ++ '{' :: (inner ++ '}' :: after)

/-- The block is one of the top level: its opening brace counts, every block that is opened in front
of it is closed in front of it, and its closing brace is the one behind the inner text. -/
structure IsTopBlock (before inner after : List Char) : Prop where
  counts : before.length ∈ openBraces (enclose before inner after)
  closed_before : ∀ start ∈ openBraces (enclose before inner after), start < before.length →
    ∃ stop < before.length, blockEnd? (enclose before inner after) start = some stop
  closed : blockEnd? (enclose before inner after) before.length =
    some (before.length + 1 + inner.length)

/-- What stands in front of a brace that counts has lexemes of its own, and so has what follows,
whatever that is. -/
theorem ofText_append_openBrace (h : before.length ∈ openBraces (before ++ '{' :: after))
    (rest : List Char) :
    ofText (before ++ '{' :: rest) = ofText before ++ openBrace :: ofText rest := by
  obtain ⟨front, back, hlexemes, hwidth⟩ := mem_openBraces_iff.mp h
  have htext : before ++ '{' :: after = front.flatMap text ++ '{' :: back.flatMap text := by
    rw [← flatMap_text_ofText (before ++ '{' :: after), hlexemes]
    simp [text]
  obtain ⟨rfl, -⟩ := List.append_inj htext hwidth
  have hfront : ofText (front.flatMap text) = front := ofText_front hlexemes
  -- The brace is a lexeme of its own also where the text ends behind it.
  have hbrace : ofText (front.flatMap text ++ ['{']) =
      ofText (front.flatMap text) ++ [openBrace] := by
    have hboth : ofText (front.flatMap text ++ '{' :: after) = (front ++ [openBrace]) ++ back := by
      rw [hlexemes, List.append_cons]
    have hboth := ofText_front hboth
    rw [List.flatMap_append] at hboth
    rw [hfront]
    exact hboth
  have hrest : EndsSlash ('{' :: rest) := fun c hc => Option.some.inj hc ▸ by decide
  rw [ofText_append_of_isInert (by decide) hbrace hrest]
  exact congrArg _ (hasLexemes_openBrace rest)

/-- The inner text of a closed block is what is cut out. -/
theorem exists_cutBlock?_of_blockEnd? (hcounts : before.length ∈ openBraces (before ++ '{' :: rest))
    (h : blockEnd? (enclose before inner after) before.length =
      some (before.length + 1 + inner.length)) :
    ∃ ls, cutBlock? 0 (ofText (inner ++ '}' :: after)) = some (ls, ofText after) ∧
      ls.flatMap text = inner := by
  have hend := blockEnd?_width (ofText_append_openBrace hcounts (inner ++ '}' :: after))
  rw [width_ofText, ← enclose, h] at hend
  obtain ⟨⟨ls, back⟩, hcut, hwidth⟩ := Option.map_eq_some_iff.mp hend.symm
  have hsplit := append_of_cutBlock? hcut
  have htext : ls.flatMap text ++ '}' :: back.flatMap text = inner ++ '}' :: after := by
    rw [← flatMap_text_ofText (inner ++ '}' :: after), ← hsplit]
    simp [text]
  have hlength : width ls = inner.length := by
    have hwidth : before.length + 1 + width ls = before.length + 1 + inner.length := hwidth
    omega
  obtain ⟨hinner, hbehind⟩ := List.append_inj htext hlength
  have hback : ofText after = back := by
    rw [List.append_cons] at hsplit
    rw [← (List.cons.inj hbehind).2]
    exact ofText_back hsplit.symm
  exact ⟨ls, hback ▸ hcut, hinner⟩

/-- In front of a block of the top level no block is open. -/
theorem IsTopBlock.openBlock?_eq_none (h : IsTopBlock before inner after) :
    openBlock? [] (ofText before) = none := by
  refine Hcl.openBlock?_eq_none [] fun front back heq hcut => ?_
  have hlexemes := ofText_append_openBrace h.counts (inner ++ '}' :: after)
  rw [heq, List.append_assoc, List.cons_append] at hlexemes
  have hlength : width front + 1 + width back = before.length := by
    rw [← width_ofText before, heq, width_append, width_cons]
    simp [text, Nat.add_assoc]
  obtain ⟨stop, hlt, hstop⟩ := h.closed_before (width front)
    (mem_openBraces_iff.mpr ⟨front, _, hlexemes, rfl⟩) (by omega)
  -- A block that is not closed among the lexemes ends behind all of them.
  obtain ⟨reached, hreached⟩ := exists_cutBlock?_append hcut
  rw [enclose, blockEnd?_width hlexemes, hreached] at hstop
  obtain ⟨found, hfound, rfl⟩ := Option.map_eq_some_iff.mp hstop
  obtain ⟨cut, -, rfl⟩ := Option.map_eq_some_iff.mp hfound
  rw [width_append] at hlt
  omega

/-- A body with a block of the top level that ends its line is taken apart in the same way, whatever
the block encloses: only the inner text of this block is another one. -/
theorem IsTopBlock.exists_split_eq {line : List Char} (h : IsTopBlock before inner line)
    (hline : IsLineEnd line) : ∃ front back : Split, ∀ inner',
      blockEnd? (enclose before inner' line) before.length =
          some (before.length + 1 + inner'.length) →
        split (enclose before inner' line) = ⟨front.top ++ '{' :: '}' :: back.top,
          front.nested ++ ⟨nameOnLine before.reverse, inner'⟩ :: back.nested⟩ := by
  refine ⟨splitLexemes [] (ofText before), splitLexemes [] (ofText line), fun inner' hclosed => ?_⟩
  obtain ⟨ls, hcut, rfl⟩ := exists_cutBlock?_of_blockEnd? h.counts hclosed
  -- The names of later blocks are looked for behind the line end, so what is in front is no matter.
  have hback (more : List Char) : splitLexemes more (ofText line) = splitLexemes [] (ofText line) :=
    (splitLexemes_lineEnd hline.lexemes more []).2
  rw [split, enclose, ofText_append_openBrace h.counts, splitLexemes_append h.openBlock?_eq_none,
    flatMap_text_ofText, splitLexemes_block hcut, hback, List.append_nil]

/-! ## Attributes -/

/-- Blocks of another name do not matter to the tags. -/
theorem insertTags_append_cons {name : List Char} (hname : name ≠ "tags".toList)
    (entries : Entries Value) (front back : List Nested) (inner : List Char) :
    insertTags entries (front ++ ⟨name, inner⟩ :: back) = insertTags entries (front ++ back) := by
  rw [insertTags, insertTags, List.foldl_append, List.foldl_append, List.foldl_cons, if_neg hname]

/-- What a block encloses does not matter to the attributes of the body that it stands in, unless
its name is that of the tags. -/
theorem attributes_congr_inner {inner' : List Char} (h : IsTopBlock before inner ('\n' :: after))
    (hname : nameOnLine before.reverse ≠ "tags".toList)
    (hinner' : blockEnd? (enclose before inner' ('\n' :: after)) before.length =
      some (before.length + 1 + inner'.length)) :
    attributes (enclose before inner' ('\n' :: after)) =
      attributes (enclose before inner ('\n' :: after)) := by
  obtain ⟨front, back, hsplit⟩ := h.exists_split_eq (.inr ⟨after, rfl⟩)
  rw [attributes_eq, attributes_eq, hsplit inner' hinner', hsplit inner h.closed]
  simp only [insertTags_append_cons hname]

/-- A body up to a block, behind a block that is closed. -/
def beforeTimeouts : List Char :=
  "  disk \x7b\x7d # \x7b\n  timeouts ".toList

/-- What it may enclose: a brace in a string, assignments, a list without an end and a block. -/
def longTimeouts : List Char :=
  " create = \"\x7d\"\n size = 3\n zones = [\n tags = \x7b\x7d ".toList

theorem attributes_congr_inner_timeouts :
    IsTopBlock beforeTimeouts [] ('\n' :: "  size = 2".toList) ∧
      nameOnLine beforeTimeouts.reverse ≠ "tags".toList ∧
      blockEnd? (enclose beforeTimeouts longTimeouts ('\n' :: "  size = 2".toList))
          beforeTimeouts.length = some (beforeTimeouts.length + 1 + longTimeouts.length) ∧
      attributes (enclose beforeTimeouts longTimeouts ('\n' :: "  size = 2".toList)) =
        attributes (enclose beforeTimeouts [] ('\n' :: "  size = 2".toList)) := by
  have htop : IsTopBlock beforeTimeouts [] ('\n' :: "  size = 2".toList) := by
    refine ⟨by decide +kernel, fun start hstart hlt => ?_, by decide +kernel⟩
    have hopen : openBraces (enclose beforeTimeouts [] ('\n' :: "  size = 2".toList)) =
        [7, 25] := by decide +kernel
    have hlength : beforeTimeouts.length = 25 := by decide +kernel
    rw [hopen, List.mem_cons, List.mem_singleton] at hstart
    obtain rfl : start = 7 := by omega
    exact ⟨8, by omega, by decide +kernel⟩
  have hname : nameOnLine beforeTimeouts.reverse ≠ "tags".toList := by decide +kernel
  have hclosed : blockEnd? (enclose beforeTimeouts longTimeouts ('\n' :: "  size = 2".toList))
      beforeTimeouts.length = some (beforeTimeouts.length + 1 + longTimeouts.length) := by
    decide +kernel
  exact ⟨htop, hname, hclosed, attributes_congr_inner htop hname hclosed⟩

end Schematic.Hcl
