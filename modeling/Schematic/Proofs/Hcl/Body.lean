import Schematic.Hcl.Attribute
import Schematic.Proofs.Hcl.Written
import Schematic.Proofs.Text.Search

/-!
# Taking a written body apart

A body that is written as flat text stays as it is; a block in it is drawn together and kept with
the first name on its line. Lines that hold no line end of their own are the lines of the text
that they are put together to.

## Main statements

- `split_of_isFlat`, `splitLexemes_block` — flat text and a block in a body
- `listsFrom_line`, `listsFrom_list` — a line without a list and one with a list
-/

namespace Schematic.Hcl

open Lexeme

/-! ## Flat text and blocks -/

theorem splitLexemes_cons {l : Lexeme} (h : l.isFlat = true) (before : List Char)
    (rest : List Lexeme) : splitLexemes before (l :: rest) =
      ⟨l.text ++ (splitLexemes (l.text.reverse ++ before) rest).top,
        (splitLexemes (l.text.reverse ++ before) rest).nested⟩ := by
  cases l with
  | literal cs => rw [splitLexemes] <;> simp
  | other c => rw [splitLexemes] <;> simp
  | comment cs => cases h
  | openBrace => cases h
  | closeBrace => cases h

/-- Flat text stays as it is. -/
theorem splitLexemes_flat {ls : List Lexeme} (h : ∀ l ∈ ls, l.isFlat = true)
    (before : List Char) (rest : List Lexeme) : splitLexemes before (ls ++ rest) =
      ⟨ls.flatMap text ++ (splitLexemes ((ls.flatMap text).reverse ++ before) rest).top,
        (splitLexemes ((ls.flatMap text).reverse ++ before) rest).nested⟩ := by
  induction ls generalizing before with
  | nil => rfl
  | cons l ls ih =>
    rw [List.cons_append, splitLexemes_cons (h l List.mem_cons_self),
      ih fun m hm => h m (List.mem_cons_of_mem _ hm)]
    simp

/-- A body of flat text has no blocks. -/
theorem split_of_isFlat {cs : List Char} (h : IsFlat cs) : split cs = ⟨cs, []⟩ := by
  obtain ⟨ls, hls, hflat⟩ := h
  have hsplit := splitLexemes_flat hflat [] []
  rw [List.append_nil, hls.flatMap_text] at hsplit
  rw [split, hls.ofText_eq, hsplit, splitLexemes]
  simp

/-- A block is drawn together. -/
theorem splitLexemes_block {before : List Char} {rest inner after : List Lexeme}
    (h : cutBlock? 0 rest = some (inner, after)) : splitLexemes before (openBrace :: rest) =
      ⟨'{' :: '}' ::
          (splitLexemes ('}' :: (inner.flatMap text).reverse ++ '{' :: before) after).top,
        ⟨nameOnLine before, inner.flatMap text⟩ ::
          (splitLexemes ('}' :: (inner.flatMap text).reverse ++ '{' :: before) after).nested⟩ := by
  rw [splitLexemes]
  split
  · next hnone =>
    rw [h] at hnone
    cases hnone
  · next hsome =>
    obtain ⟨rfl, rfl⟩ := Prod.mk.inj (Option.some.inj (h.symm.trans hsome))
    rfl

/-- The first name on a line that is indented. -/
theorem nameOnLine_append {name : List Char} (hname : '\n' ∉ name) (front : List Char) :
    nameOnLine (name.reverse ++ '\n' :: front) =
      ((identifier? (name.dropWhile fun c => c == ' ' || c == '\t')).map Prod.fst).getD [] := by
  have htake : (name.reverse ++ '\n' :: front).takeWhile (· != '\n') = name.reverse := by
    rw [List.takeWhile_append_of_pos]
    · simp
    · intro c hc
      rw [bne_iff_ne]
      rintro rfl
      exact hname (List.mem_reverse.mp hc)
  rw [nameOnLine, htake, List.reverse_reverse]
  split
  · next heq => rw [heq]; rfl
  · next heq => rw [heq]; rfl

/-! ## Lists -/

/-- Behind the start of a line no list begins up to its end. -/
theorem listsFrom_lineRest {line : List Char} (h : '\n' ∉ line) (rest : List Char) :
    listsFrom false 0 (line ++ '\n' :: rest) = listsFrom true 0 rest := by
  induction line with
  | nil => rfl
  | cons c line ih =>
    have hc := beq_feed_eq_false h
    rw [List.cons_append, listsFrom, if_neg (by decide)]
    simp only [hc]
    exact ih fun hmem => h (List.mem_cons_of_mem _ hmem)

/-- A line on which no list begins. -/
theorem listsFrom_line {line rest : List Char} (h : '\n' ∉ line)
    (hnone : listStart? (line ++ '\n' :: rest) = none) :
    listsFrom true 0 (line ++ '\n' :: rest) = listsFrom true 0 rest := by
  cases line with
  | nil =>
    rw [List.nil_append] at hnone ⊢
    rw [listsFrom, if_pos rfl, hnone]
    rfl
  | cons c line =>
    have hc := beq_feed_eq_false h
    rw [List.cons_append] at hnone ⊢
    rw [listsFrom, if_pos rfl, hnone]
    simp only [hc]
    exact listsFrom_lineRest (fun hmem => h (List.mem_cons_of_mem _ hmem)) rest

/-- No list begins on an empty line. -/
theorem listsFrom_feed (rest : List Char) :
    listsFrom true 0 ('\n' :: rest) = listsFrom true 0 rest :=
  @listsFrom_line [] rest (by simp) rfl

/-- Characters of a list that was found are passed over. -/
theorem listsFrom_skip {front : List Char} (h : '\n' ∉ front) (rest : List Char) :
    listsFrom false front.length (front ++ rest) = listsFrom false 0 rest := by
  induction front with
  | nil => rfl
  | cons c front ih =>
    have hc := beq_feed_eq_false h
    rw [List.cons_append, List.length_cons, listsFrom]
    simp only [hc]
    exact ih fun hmem => h (List.mem_cons_of_mem _ hmem)

/-- A line that is a list. -/
theorem listsFrom_list {line rest key content : List Char} (hne : line ≠ []) (h : '\n' ∉ line)
    (hclose : ']' ∉ content)
    (hstart : listStart? (line ++ '\n' :: rest) = some (key, content ++ ']' :: '\n' :: rest)) :
    listsFrom true 0 (line ++ '\n' :: rest) = (key, content) :: listsFrom true 0 rest := by
  obtain ⟨c, line, rfl⟩ := List.exists_cons_of_ne_nil hne
  have hc := beq_feed_eq_false h
  -- The brackets close at the end of the line, so the walk goes on at its line feed.
  have hlength : (line ++ '\n' :: rest).length - ('\n' :: rest).length = line.length := by
    rw [List.length_append, Nat.add_sub_cancel]
  rw [List.cons_append] at hstart ⊢
  rw [listsFrom, if_pos rfl, hstart]
  simp only [Text.cutAtChar?_append hclose, hc]
  rw [hlength, listsFrom_skip fun hmem => h (List.mem_cons_of_mem _ hmem)]
  rfl

end Schematic.Hcl
