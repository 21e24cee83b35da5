import Schematic.Proofs.Hcl.Body
import Schematic.Proofs.Hcl.Padded

/-!
# Bodies with a comment more

A body with a comment put at the end of one of its lines is taken apart in the same way. At the top
level the comment is left out again, and only the blank in front of it stays. In a nested block it
stays with the rest of the inner text, which is not read any further here. Nothing else changes: the
names of blocks are read from the lines that open them, and there the comment does not stand.

## Main definitions

- `openBlock?` — the block that a place in a body lies in
- `Remarked` — a body taken apart, with the comment and without

## Main statements

- `remarked_splitLexemes` — what a comment changes
-/

namespace Schematic.Hcl

open Lexeme

/-! ## The line that a block is opened on -/

/-- Only what stands on the same line matters for what stands on a line so far. -/
theorem takeWhile_append_congr {before before' : List Char}
    (h : before.takeWhile (· != '\n') = before'.takeWhile (· != '\n')) (cs : List Char) :
    (cs ++ before).takeWhile (· != '\n') = (cs ++ before').takeWhile (· != '\n') := by
  induction cs with
  | nil => exact h
  | cons c cs ih => simp only [List.cons_append, List.takeWhile_cons, ih]

theorem takeWhile_append_of_feed {cs : List Char} (h : '\n' ∈ cs) (before before' : List Char) :
    (cs ++ before).takeWhile (· != '\n') = (cs ++ before').takeWhile (· != '\n') := by
  induction cs with
  | nil => cases h
  | cons c cs ih =>
    by_cases hc : c = '\n'
    · simp [hc]
    · simp [hc, ih ((List.mem_cons.mp h).resolve_left (Ne.symm hc))]

theorem nameOnLine_congr {before before' : List Char}
    (h : before.takeWhile (· != '\n') = before'.takeWhile (· != '\n')) :
    nameOnLine before = nameOnLine before' := by
  rw [nameOnLine, nameOnLine, h]

/-! ## Lexemes one by one -/

theorem splitLexemes_comment (before text : List Char) (rest : List Lexeme) :
    splitLexemes before (comment text :: rest) = splitLexemes (text.reverse ++ before) rest := by
  rw [splitLexemes]

/-- All other lexemes but opening braces stay as they are. -/
theorem splitLexemes_of_ne {l : Lexeme} (hcomment : ∀ text, l ≠ comment text)
    (hopen : l ≠ openBrace) (before : List Char) (rest : List Lexeme) :
    splitLexemes before (l :: rest) =
      ⟨l.text ++ (splitLexemes (l.text.reverse ++ before) rest).top,
        (splitLexemes (l.text.reverse ++ before) rest).nested⟩ := by
  rw [splitLexemes]
  · exact hcomment
  · exact hopen

theorem splitLexemes_open {rest : List Lexeme} (h : cutBlock? 0 rest = none)
    (before : List Char) : splitLexemes before (openBrace :: rest) = ⟨[], []⟩ := by
  rw [splitLexemes]
  split
  · rfl
  · next hsome =>
    rw [h] at hsome
    cases hsome

/-- The way in which a body is taken apart: lexemes are left out or kept one by one, closed blocks
are passed over as a whole, and a block that is not closed ends the body. -/
@[elab_as_elim]
theorem split_induction {motive : List Lexeme → Prop} (nil : motive [])
    (comment : ∀ text rest, motive rest → motive (comment text :: rest))
    (unclosed : ∀ rest, cutBlock? 0 rest = none → motive (openBrace :: rest))
    (block : ∀ rest inner after, cutBlock? 0 rest = some (inner, after) → motive after →
      motive (openBrace :: rest))
    (kept : ∀ l rest, (∀ text, l ≠ Lexeme.comment text) → l ≠ openBrace → motive rest →
      motive (l :: rest))
    (ls : List Lexeme) : motive ls := by
  -- A closed block is passed over with all that it holds, so the induction is on the length.
  induction hn : ls.length using Nat.strongRecOn generalizing ls with
  | ind n ih =>
    cases ls with
    | nil => exact nil
    | cons l rest =>
      have hrest : motive rest := ih rest.length (by simp [← hn]) rest rfl
      by_cases hcomment : ∃ text, l = Lexeme.comment text
      · obtain ⟨text, rfl⟩ := hcomment
        exact comment text rest hrest
      by_cases hopen : l = openBrace
      · subst hopen
        cases hcut : cutBlock? 0 rest with
        | none => exact unclosed rest hcut
        | some cut =>
          have hlt := length_lt_of_cutBlock? hcut
          exact block rest cut.1 cut.2 hcut (ih cut.2.length (by simp [← hn]; omega) cut.2 rfl)
      · exact kept l rest (fun text heq => hcomment ⟨text, heq⟩) hopen hrest

/-- What a body is taken apart to depends on nothing in front of the line. -/
theorem splitLexemes_congr {before before' : List Char}
    (h : before.takeWhile (· != '\n') = before'.takeWhile (· != '\n')) (ls : List Lexeme) :
    splitLexemes before ls = splitLexemes before' ls := by
  induction ls using split_induction generalizing before before' with
  | nil => rw [splitLexemes, splitLexemes]
  | comment text rest ih =>
    rw [splitLexemes_comment, splitLexemes_comment, ih (takeWhile_append_congr h _)]
  | unclosed rest hcut => rw [splitLexemes_open hcut, splitLexemes_open hcut]
  | block rest inner after hcut ih =>
    have hblock : ('}' :: (inner.flatMap text).reverse ++ '{' :: before).takeWhile (· != '\n') =
        ('}' :: (inner.flatMap text).reverse ++ '{' :: before').takeWhile (· != '\n') :=
      takeWhile_append_congr (takeWhile_append_congr h ['{']) _
    rw [splitLexemes_block hcut, splitLexemes_block hcut, nameOnLine_congr h, ih hblock]
  | kept l rest hcomment hopen ih =>
    rw [splitLexemes_of_ne hcomment hopen, splitLexemes_of_ne hcomment hopen,
      ih (takeWhile_append_congr h _)]

/-! ## The block around a place -/

/-- The name of the outermost block that is open at the end of lexemes. -/
def openBlock? (before : List Char) (ls : List Lexeme) : Option (List Char) :=
  match ls with
  | [] => none
  | openBrace :: rest =>
    match _h : cutBlock? 0 rest with
    | none => some (nameOnLine before)
    | some (inner, after) =>
      openBlock? ('}' :: (inner.flatMap text).reverse ++ '{' :: before) after
  | lexeme :: rest => openBlock? (lexeme.text.reverse ++ before) rest
termination_by ls.length
decreasing_by
  · have := length_lt_of_cutBlock? _h
    simp
    omega
  · simp

theorem openBlock?_of_ne {l : Lexeme} (hopen : l ≠ openBrace) (before : List Char)
    (rest : List Lexeme) :
    openBlock? before (l :: rest) = openBlock? (l.text.reverse ++ before) rest := by
  rw [openBlock?]
  exact hopen

theorem openBlock?_open {rest : List Lexeme} (h : cutBlock? 0 rest = none)
    (before : List Char) : openBlock? before (openBrace :: rest) = some (nameOnLine before) := by
  rw [openBlock?]
  split
  · rfl
  · next hsome =>
    rw [h] at hsome
    cases hsome

theorem openBlock?_block {rest inner after : List Lexeme}
    (h : cutBlock? 0 rest = some (inner, after)) (before : List Char) :
    openBlock? before (openBrace :: rest) =
      openBlock? ('}' :: (inner.flatMap text).reverse ++ '{' :: before) after := by
  rw [openBlock?]
  split
  · next hnone =>
    rw [h] at hnone
    cases hnone
  · next hsome =>
    obtain ⟨rfl, rfl⟩ := Prod.mk.inj (Option.some.inj (h.symm.trans hsome))
    rfl

/-! ## A block that is open -/

/-- A block that is open goes on with what follows, at the depth that is reached by then. -/
theorem exists_cutBlock?_append {depth : Nat} {ls : List Lexeme} (h : cutBlock? depth ls = none) :
    ∃ reached, ∀ more, cutBlock? depth (ls ++ more) =
      (cutBlock? reached more).map fun cut => (ls ++ cut.1, cut.2) := by
  fun_induction cutBlock? depth ls with
  | case1 depth => exact ⟨depth, fun more => by
    rw [List.nil_append]
    exact Option.map_id_apply.symm⟩
  | case2 depth rest ih =>
    obtain ⟨reached, hreached⟩ := ih (Option.map_eq_none_iff.mp h)
    refine ⟨reached, fun more => ?_⟩
    rw [List.cons_append, cutBlock?, hreached, Option.map_map]
    rfl
  | case3 => cases h
  | case4 rest depth ih =>
    obtain ⟨reached, hreached⟩ := ih (Option.map_eq_none_iff.mp h)
    refine ⟨reached, fun more => ?_⟩
    rw [List.cons_append, cutBlock?, hreached, Option.map_map]
    rfl
  | case5 depth l rest hopen hclose ih =>
    obtain ⟨reached, hreached⟩ := ih (Option.map_eq_none_iff.mp h)
    refine ⟨reached, fun more => ?_⟩
    rw [List.cons_append, cutBlock?_cons hopen hclose, hreached, Option.map_map]
    rfl

/-! ## A comment more -/

/-- The first block is the second one, perhaps with a comment at the end of a line in it if its
name is the given one. -/
inductive Remarked (remark : List Char) (name? : Option (List Char)) : Nested → Nested → Prop where
  | refl (block : Nested) : Remarked remark name? block block
  | remark {name : List Char} (h : name? = some name) (front rest : List Char) :
      Remarked remark name? ⟨name, front ++ ' ' :: (remark ++ '\n' :: rest)⟩
        ⟨name, front ++ '\n' :: rest⟩

/-- Lexemes at the end of a line. -/
def IsLineEndLexemes (ls : List Lexeme) : Prop :=
  ls = [] ∨ ∃ more, ls = other '\n' :: more

theorem IsLineEnd.lexemes {rest : List Char} (h : IsLineEnd rest) :
    IsLineEndLexemes (ofText rest) := by
  rcases h with rfl | ⟨more, rfl⟩
  · exact .inl HasLexemes.nil.ofText_eq
  · exact .inr ⟨ofText more, hasLexemes_char (by decide) more⟩

/-- The end of a line stays it when a body is taken apart, and what stood on the line does not
matter from there on. -/
theorem splitLexemes_lineEnd {ls : List Lexeme} (h : IsLineEndLexemes ls)
    (before before' : List Char) : IsLineEnd (splitLexemes before ls).top ∧
      splitLexemes before ls = splitLexemes before' ls := by
  rcases h with rfl | ⟨more, rfl⟩
  · rw [splitLexemes, splitLexemes]
    exact ⟨.inl rfl, rfl⟩
  · have hfeed : splitLexemes ((other '\n').text.reverse ++ before) more =
        splitLexemes ((other '\n').text.reverse ++ before') more :=
      splitLexemes_congr (by simp [text]) more
    rw [splitLexemes_cons rfl, splitLexemes_cons rfl, hfeed]
    exact ⟨.inr ⟨_, rfl⟩, rfl⟩

/-- A block that is open stays open with a comment at the end of a line, or it is closed behind
that line. -/
theorem cutBlock?_remark {ls more : List Lexeme} (h : cutBlock? 0 ls = none)
    (hmore : IsLineEndLexemes more) (remark : List Char) :
    (cutBlock? 0 (ls ++ other ' ' :: comment remark :: more) = none ∧
      cutBlock? 0 (ls ++ more) = none) ∨
    ∃ back after, cutBlock? 0 (ls ++ other ' ' :: comment remark :: more) =
        some (ls ++ other ' ' :: comment remark :: other '\n' :: back, after) ∧
      cutBlock? 0 (ls ++ more) = some (ls ++ other '\n' :: back, after) := by
  obtain ⟨reached, hreached⟩ := exists_cutBlock?_append h
  rw [hreached, hreached]
  rcases hmore with rfl | ⟨more, rfl⟩
  · exact .inl ⟨rfl, rfl⟩
  · repeat rw [cutBlock?_cons (by simp) (by simp)]
    cases cutBlock? reached more with
    | none => exact .inl ⟨rfl, rfl⟩
    | some cut => exact .inr ⟨cut.1, cut.2, rfl, rfl⟩

/-- A comment at the end of a line leaves a blank in the top-level text and is kept in the block
that it stands in. -/
theorem splitLexemes_remark {more : List Lexeme} (hmore : IsLineEndLexemes more)
    (remark before : List Char) (ls : List Lexeme) :
    Padded (splitLexemes before (ls ++ other ' ' :: comment remark :: more)).top
        (splitLexemes before (ls ++ more)).top ∧
      List.Forall₂ (Remarked remark (openBlock? before ls))
        (splitLexemes before (ls ++ other ' ' :: comment remark :: more)).nested
        (splitLexemes before (ls ++ more)).nested := by
  have hrefl (name? : Option (List Char)) (blocks : List Nested) :
      List.Forall₂ (Remarked remark name?) blocks blocks :=
    List.forall₂_same.mpr fun _ _ => .refl _
  induction ls using split_induction generalizing before with
  | nil =>
    rw [List.nil_append, List.nil_append, splitLexemes_cons rfl, splitLexemes_comment]
    obtain ⟨hend, heq⟩ :=
      splitLexemes_lineEnd hmore before (remark.reverse ++ ([' '].reverse ++ before))
    rw [show (other ' ').text = [' '] from rfl, ← heq]
    exact ⟨.blank [] hend, hrefl _ _⟩
  | comment text rest ih =>
    rw [List.cons_append, List.cons_append, splitLexemes_comment, splitLexemes_comment,
      openBlock?_of_ne (by simp)]
    exact ih _
  | kept l rest hcomment hopen ih =>
    rw [List.cons_append, List.cons_append, splitLexemes_of_ne hcomment hopen,
      splitLexemes_of_ne hcomment hopen, openBlock?_of_ne hopen]
    exact ⟨(ih _).1.append_left l.text, (ih _).2⟩
  | block rest inner after hcut ih =>
    rw [List.cons_append, List.cons_append,
      splitLexemes_block (cutBlock?_append_of_some hcut _),
      splitLexemes_block (cutBlock?_append_of_some hcut _), openBlock?_block hcut]
    exact ⟨(ih _).1.append_left ['{', '}'], .cons (.refl _) (ih _).2⟩
  | unclosed rest hcut =>
    -- The comment stands in this block, which is closed behind it or not at all.
    rw [List.cons_append, List.cons_append, openBlock?_open hcut]
    rcases cutBlock?_remark hcut hmore remark with ⟨hnone, hnone'⟩ | ⟨back, after, hsome, hsome'⟩
    · rw [splitLexemes_open hnone, splitLexemes_open hnone']
      exact ⟨.refl _, .nil⟩
    · -- The line feed in the block parts its end from the comment.
      have hafter : splitLexemes ('}' :: ((rest ++ other ' ' :: comment remark ::
            other '\n' :: back).flatMap text).reverse ++ '{' :: before) after =
          splitLexemes ('}' :: ((rest ++ other '\n' :: back).flatMap text).reverse ++
            '{' :: before) after := by
        apply splitLexemes_congr
        have hfeed : '\n' ∈ '}' :: (back.flatMap text).reverse ++ ['\n'] := by simp
        simpa [List.flatMap_append, text] using takeWhile_append_of_feed hfeed _ _
      rw [splitLexemes_block hsome, splitLexemes_block hsome', hafter]
      refine ⟨.refl _, .cons ?_ (hrefl _ _)⟩
      have hblock : Remarked remark (some (nameOnLine before))
          ⟨nameOnLine before, rest.flatMap text ++ ' ' :: (remark ++ '\n' :: back.flatMap text)⟩
          ⟨nameOnLine before, rest.flatMap text ++ '\n' :: back.flatMap text⟩ :=
        .remark rfl _ _
      simpa [text] using hblock

end Schematic.Hcl
