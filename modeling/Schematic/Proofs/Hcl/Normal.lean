import Schematic.Proofs.Hcl.Matching
import Schematic.Proofs.Hcl.Opening
import Schematic.Proofs.Hcl.Remarked

/-!
# The top-level text is taken apart no further

Taking a body apart leaves out its comments and the inner text of its blocks, so characters come
together that did not stand together. No comment, string or brace comes about by that. A lexeme
other than a comment depends on nothing behind it but whether its line ends there, and a slash on
whether a slash or a star is next; and no comment that is left out stands in place of either. So the
lexemes of the top-level text are lexemes of the body, in the same order, and taking the top-level
text apart gives it back, with one empty block for each block of the body.

## Main definitions

- `EndsLike` — one text ends the lexemes in front of it as another one does
- `IsNormal` — lexemes without comments and with empty blocks only
- `IsNormalForm` — what a body and its top-level text have to do with each other

## Main statements

- `next_congr` — a lexeme in front of another text
- `endsLike_top` — the top-level text of a text ends lexemes as the text does
- `isNormalForm_split` — the top-level text of a body is in normal form
-/

namespace Schematic.Hcl

open Lexeme

/-! ## What ends a lexeme -/

/-- The second text ends a lexeme in front of it where the first one does: it makes no comment of a
slash if the first one does not, and stands at the end of a line where the first one does. -/
structure EndsLike (rest rest' : List Char) : Prop where
  endsSlash : EndsSlash rest → EndsSlash rest'
  head_eq : IsLineEnd rest → rest'.head? = rest.head?

/-- A literal ends at its closing quote or at the end of its line. -/
theorem cutLiteral_congr {cs rest : List Char} (h : EndsLike (cutLiteral cs).2 rest) :
    cutLiteral ((cutLiteral cs).1 ++ rest) = ((cutLiteral cs).1, rest) := by
  fun_induction cutLiteral cs with
  | case1 =>
    obtain rfl : rest = [] := List.head?_eq_none_iff.mp (h.head_eq (.inl rfl))
    rfl
  | case2 more => rfl
  | case3 more =>
    obtain ⟨tail, rfl⟩ := List.head?_eq_some_iff.mp (h.head_eq (.inr ⟨more, rfl⟩))
    rfl
  | case4 =>
    obtain rfl : rest = [] := List.head?_eq_none_iff.mp (h.head_eq (.inl rfl))
    rfl
  | case5 c more taken left hmore ih =>
    rw [hmore] at ih
    simp only [List.cons_append, cutLiteral, ih h]
  | case6 c more hquote hfeed hlast hescape taken left hmore ih =>
    have hback : c ≠ '\\' := by
      rintro rfl
      cases more with
      | nil => exact hlast rfl rfl
      | cons d more => exact hescape d more rfl rfl
    rw [hmore] at ih
    rw [List.cons_append, cutLiteral_cons hquote hfeed hback, ih h]

/-- A text behind a slash that begins no comment makes none of it. -/
theorem endsSlash_of_cutComment? {rest : List Char} (h : cutComment? ('/' :: rest) = none) :
    EndsSlash rest := by
  intro c hc
  obtain ⟨tail, rfl⟩ := List.head?_eq_some_iff.mp hc
  constructor
  · rintro rfl
    cases h
  · rintro rfl
    cases h

/-- A lexeme that is no comment stays the same in front of a text that ends it in the same way. -/
theorem next_congr {c : Char} {rest cs left left' : List Char} {l : Lexeme}
    (h : next c rest = (l, left)) (htext : l.text = c :: cs) (hcomment : ∀ text, l ≠ comment text)
    (hleft : EndsLike left left') : next c (cs ++ left') = (l, left') := by
  unfold next at h
  split at h
  · obtain ⟨rfl, -⟩ := Prod.mk.inj h
    exact absurd rfl (hcomment _)
  next hnone =>
  have hhash : c ≠ '#' := by
    rintro rfl
    cases hnone
  split at h
  · next hquote =>
    subst hquote
    obtain ⟨rfl, rfl⟩ := Prod.mk.inj h
    obtain ⟨-, rfl⟩ := List.cons.inj htext
    rw [next, cutComment?_eq_none hhash (by simp)]
    simp only [if_true, cutLiteral_congr hleft]
  · next hquote =>
    -- Any other lexeme is one character, and only a slash looks at what is behind it.
    have hsingle : cutComment? (c :: left) = none → cutComment? (c :: left') = none := by
      intro hcut
      refine cutComment?_eq_none hhash fun hslash d more heq => ?_
      subst hslash
      exact hleft.endsSlash (endsSlash_of_cutComment? hcut) d (heq ▸ rfl)
    split at h
    · next hopen =>
      subst hopen
      obtain ⟨rfl, rfl⟩ := Prod.mk.inj h
      obtain ⟨-, rfl⟩ := List.cons.inj htext
      rfl
    · next hopen =>
      split at h
      · next hclose =>
        subst hclose
        obtain ⟨rfl, rfl⟩ := Prod.mk.inj h
        obtain ⟨-, rfl⟩ := List.cons.inj htext
        rfl
      · next hclose =>
        obtain ⟨rfl, rfl⟩ := Prod.mk.inj h
        obtain ⟨-, rfl⟩ := List.cons.inj htext
        exact next_eq_other (hsingle hnone) hquote hopen hclose

/-! ## The top-level text behind a lexeme -/

/-- The top-level text of a text at the end of a line begins as the text does. -/
theorem head?_top_of_isLineEnd {cs : List Char} (h : IsLineEnd cs) (before : List Char) :
    (splitLexemes before (ofText cs)).top.head? = cs.head? := by
  rcases h with rfl | ⟨more, rfl⟩
  · rw [ofText_nil, splitLexemes]
  · have hfeed : ofText ('\n' :: more) = other '\n' :: ofText more :=
      hasLexemes_char (by decide) more
    rw [hfeed, splitLexemes_cons rfl]
    rfl

/-- Where no comment begins, the first lexeme is none. -/
theorem next_ne_comment {c : Char} {rest : List Char} (h : cutComment? (c :: rest) = none)
    (text : List Char) : (next c rest).1 ≠ comment text := by
  rw [next, h]
  simp only
  split
  · simp
  · split
    · simp
    · split <;> simp

/-- The top-level text begins with the first character of the text, with an opening brace or behind
a comment, and a comment that no slash begins reaches up to the end of its line. -/
theorem endsSlash_top {cs : List Char} (h : EndsSlash cs) (before : List Char) :
    EndsSlash (splitLexemes before (ofText cs)).top := by
  cases cs with
  | nil =>
    rw [ofText_nil, splitLexemes]
    exact h
  | cons c rest =>
    rw [ofText_cons]
    by_cases hhash : c = '#'
    · subst hhash
      have hnext : next '#' rest = (comment ('#' :: (cutLine rest).1), (cutLine rest).2) := rfl
      have hline := (isLineEnd_cutLine rest).2.lexemes
      rw [hnext, splitLexemes_comment]
      exact (splitLexemes_lineEnd hline _ []).1.endsSlash
    · have hnone : cutComment? (c :: rest) = none :=
        cutComment?_eq_none hhash fun hslash => absurd hslash (h c rfl).1
      by_cases hopen : (next c rest).1 = openBrace
      · rw [hopen]
        cases hcut : cutBlock? 0 (ofText (next c rest).2) with
        | none =>
          rw [splitLexemes_open hcut]
          exact fun d hd => by cases hd
        | some cut =>
          rw [splitLexemes_block hcut]
          exact fun d hd => Option.some.inj hd ▸ by decide
      · obtain ⟨more, hmore⟩ := exists_text_next c rest
        rw [splitLexemes_of_ne (next_ne_comment hnone) hopen, hmore]
        exact h

/-- The top-level text of a text ends a lexeme in front of it as the text does. -/
theorem endsLike_top (before cs : List Char) :
    EndsLike cs (splitLexemes before (ofText cs)).top :=
  ⟨fun h => endsSlash_top h before, fun h => head?_top_of_isLineEnd h before⟩

/-! ## Normal lexemes -/

/-- Lexemes without comments whose blocks are so many and all empty. -/
inductive IsNormal : Nat → List Lexeme → Prop where
  | nil : IsNormal 0 []
  | kept {n : Nat} {l : Lexeme} {ls : List Lexeme} (hcomment : ∀ text, l ≠ comment text)
      (hopen : l ≠ openBrace) (h : IsNormal n ls) : IsNormal n (l :: ls)
  | block {n : Nat} {ls : List Lexeme} (h : IsNormal n ls) :
      IsNormal (n + 1) (openBrace :: closeBrace :: ls)

namespace IsNormal

variable {n : Nat} {ls : List Lexeme}

theorem comment_not_mem (h : IsNormal n ls) (remark : List Char) : comment remark ∉ ls := by
  induction h with
  | nil => exact List.not_mem_nil
  | kept hcomment _ _ ih => exact List.not_mem_cons_of_ne_of_not_mem (hcomment remark).symm ih
  | block _ ih => simpa using ih

/-- Behind each opening brace there is the closing one. -/
theorem exists_closeBrace {front back : List Lexeme} (h : IsNormal n (front ++ openBrace :: back)) :
    ∃ after, back = closeBrace :: after := by
  generalize hls : front ++ openBrace :: back = ls at h
  induction h generalizing front with
  | nil => simp at hls
  | kept _ hopen _ ih =>
    cases front with
    | nil => exact absurd (List.cons.inj hls).1.symm hopen
    | cons l front => exact ih (List.cons.inj hls).2
  | block _ ih =>
    cases front with
    | nil => exact ⟨_, (List.cons.inj hls).2⟩
    | cons l front =>
      cases front with
      | nil => cases (List.cons.inj (List.cons.inj hls).2).1
      | cons m front => exact ih (List.cons.inj (List.cons.inj hls).2).2

/-- Normal lexemes stay as they are when they are taken apart. -/
theorem splitLexemes_eq (h : IsNormal n ls) (before : List Char) :
    (splitLexemes before ls).top = ls.flatMap text ∧
      (splitLexemes before ls).nested.length = n ∧
      ∀ block ∈ (splitLexemes before ls).nested, block.inner = [] := by
  induction h generalizing before with
  | nil =>
    rw [splitLexemes]
    exact ⟨rfl, rfl, by simp⟩
  | kept hcomment hopen _ ih =>
    obtain ⟨htop, hlength, hinner⟩ := ih _
    rw [splitLexemes_of_ne hcomment hopen]
    exact ⟨by rw [htop, List.flatMap_cons], hlength, hinner⟩
  | @block n ls _ ih =>
    have hcut : cutBlock? 0 (closeBrace :: ls) = some ([], ls) := rfl
    obtain ⟨htop, hlength, hinner⟩ := ih _
    rw [splitLexemes_block hcut]
    refine ⟨?_, congrArg (· + 1) hlength, List.forall_mem_cons.mpr ⟨rfl, hinner⟩⟩
    rw [htop]
    rfl

end IsNormal

/-! ## Taking a body apart -/

/-- The first lexeme of a text that goes on in another way which ends lexemes alike. -/
theorem ofText_append_congr {l : Lexeme} {ls : List Lexeme} {left left' : List Char}
    (h : ofText (l.text ++ left) = l :: ls) (hcomment : ∀ text, l ≠ comment text)
    (hleft : EndsLike left left') : ofText (l.text ++ left') = l :: ofText left' := by
  have hne : l.text ≠ [] := text_ne_nil_of_mem_ofText (h ▸ List.mem_cons_self)
  obtain ⟨c, cs, htext⟩ := List.exists_cons_of_ne_nil hne
  rw [htext, List.cons_append] at h ⊢
  rw [ofText_cons] at h ⊢
  obtain ⟨hl, -⟩ := List.cons.inj h
  have happend := text_next_append c (cs ++ left)
  rw [hl, htext, List.cons_append] at happend
  have hnext : next c (cs ++ left) = (l, left) :=
    Prod.ext hl (List.append_cancel_left (List.cons.inj happend).2)
  rw [next_congr hnext htext hcomment hleft]

/-- The lexemes of the top-level text are normal, and they are lexemes of the body. -/
theorem isNormal_top {ls : List Lexeme} (h : ofText (ls.flatMap text) = ls) (before : List Char) :
    IsNormal (splitLexemes before ls).nested.length (ofText (splitLexemes before ls).top) ∧
      (ofText (splitLexemes before ls).top).Sublist ls := by
  induction ls using split_induction generalizing before with
  | nil =>
    rw [splitLexemes, ofText_nil]
    exact ⟨.nil, List.Sublist.refl _⟩
  | comment text rest ih =>
    obtain ⟨hnormal, hsub⟩ := ih (@ofText_back _ [comment text] rest h) (text.reverse ++ before)
    rw [splitLexemes_comment]
    exact ⟨hnormal, hsub.cons _⟩
  | unclosed rest hcut =>
    rw [splitLexemes_open hcut, ofText_nil]
    exact ⟨.nil, List.nil_sublist _⟩
  | block rest inner after hcut ih =>
    have hrest := append_of_cutBlock? hcut
    have hafter : openBrace :: rest = (openBrace :: inner ++ [closeBrace]) ++ after := by
      simp [← hrest]
    rw [splitLexemes_block hcut]
    generalize '}' :: (inner.flatMap text).reverse ++ '{' :: before = more
    obtain ⟨hnormal, hsub⟩ := ih (ofText_back (hafter ▸ h)) more
    have hbraces : ofText ('{' :: '}' :: (splitLexemes more after).top) =
        openBrace :: closeBrace :: ofText (splitLexemes more after).top :=
      (hasLexemes_openBrace.append hasLexemes_closeBrace) _
    simp only [hbraces, List.length_cons]
    refine ⟨.block hnormal, ?_⟩
    rw [← hrest]
    exact ((hsub.cons_cons closeBrace).trans
      (List.sublist_append_right inner _)).cons_cons openBrace
  | kept l rest hcomment hopen ih =>
    have hrest : ofText (rest.flatMap text) = rest := @ofText_back _ [l] rest h
    obtain ⟨hnormal, hsub⟩ := ih hrest (l.text.reverse ++ before)
    rw [splitLexemes_of_ne hcomment hopen]
    -- What is left out behind the lexeme does not change where it ends.
    have hends := endsLike_top (l.text.reverse ++ before) (rest.flatMap text)
    rw [hrest] at hends
    have htop := ofText_append_congr h hcomment hends
    rw [htop]
    exact ⟨.kept hcomment hopen hnormal, hsub.cons_cons l⟩

/-- What a body and its parts have to do with each other: taking the top-level text apart gives it
back, with an empty block for each block of the body; its lexemes are lexemes of the body, in the
same order, no comment is among them, and every block is closed right behind its opening brace. -/
structure IsNormalForm (body : List Char) (parts : Split) : Prop where
  top_eq : (split parts.top).top = parts.top
  length_eq : (split parts.top).nested.length = parts.nested.length
  inner_eq : ∀ block ∈ (split parts.top).nested, block.inner = []
  sublist : (ofText parts.top).Sublist (ofText body)
  comment_not_mem : ∀ remark, comment remark ∉ ofText parts.top
  blockEnd_eq : ∀ start ∈ openBraces parts.top, blockEnd? parts.top start = some (start + 1)

/-- Taking a body apart leaves its top-level text in normal form. -/
theorem isNormalForm_split (body : List Char) : IsNormalForm body (split body) := by
  have htext : ofText ((ofText body).flatMap text) = ofText body := by rw [flatMap_text_ofText]
  obtain ⟨hnormal, hsub⟩ := isNormal_top htext []
  obtain ⟨htop, hlength, hinner⟩ := hnormal.splitLexemes_eq []
  rw [flatMap_text_ofText] at htop
  refine ⟨htop, hlength, hinner, hsub, hnormal.comment_not_mem, fun start hstart => ?_⟩
  obtain ⟨front, back, hlexemes, rfl⟩ := mem_openBraces_iff.mp hstart
  have hsplit : IsNormal _ (front ++ openBrace :: back) := hlexemes ▸ hnormal
  obtain ⟨after, rfl⟩ := hsplit.exists_closeBrace
  rw [blockEnd?_width hlexemes]
  rfl

end Schematic.Hcl
