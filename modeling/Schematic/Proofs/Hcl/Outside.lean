import Schematic.Proofs.Hcl.Written

/-!
# Places outside of strings and comments

A place in a text is outside of all strings and comments if a blank that is put there is a lexeme
of its own; a string or a comment that goes on there would take the blank up. At such a place the
text can be cut in two, unless the back part makes a comment of a slash in front of it, and it can
be gone on with in any other way. In particular a comment that is put there is one lexeme, with all
that it holds.

## Main definitions

- `EndsOutside` — a text ends outside of strings and comments
- `Mark`, `remark` — the marks of a comment up to the end of its line, and such a comment

## Main statements

- `ofText_append` — going on with a text that ends outside
- `ofText_remark` — the lexemes of a text with a comment in it
-/

namespace Schematic.Hcl

open Lexeme

/-! ## Going on with a lexeme -/

/-- A character that neither ends a line nor belongs to the marks of a comment. -/
def isInert (c : Char) : Bool :=
  c != '\n' && c != '#' && c != '/' && c != '*'

theorem ne_of_isInert {c : Char} (h : isInert c = true) :
    c ≠ '\n' ∧ c ≠ '#' ∧ c ≠ '/' ∧ c ≠ '*' := by
  simpa [isInert, and_assoc] using h

namespace Lexeme

variable {x : Char}

theorem cutLiteral_singleton (hfeed : x ≠ '\n') : cutLiteral [x] = ([x], []) := by
  by_cases hquote : x = '"'
  · subst hquote
    rfl
  · by_cases hescape : x = '\\'
    · subst hescape
      rfl
    · exact cutLiteral_cons hquote hfeed hescape []

theorem cutLiteral_extend (hx : isInert x = true) {cs taken left : List Char}
    (h : cutLiteral (cs ++ [x]) = (taken, left ++ [x])) (rest : List Char) :
    cutLiteral (cs ++ rest) = (taken, left ++ rest) := by
  fun_induction cutLiteral cs generalizing taken with
  | case1 =>
    rw [List.nil_append, cutLiteral_singleton (ne_of_isInert hx).1] at h
    simp at h
  | case2 cs =>
    obtain ⟨rfl, hleft⟩ := Prod.mk.inj h
    rw [← List.append_cancel_right hleft]
    rfl
  | case3 cs =>
    obtain ⟨rfl, hleft⟩ := Prod.mk.inj h
    obtain rfl : '\n' :: cs = left := List.append_cancel_right hleft
    rfl
  | case4 => simp [cutLiteral] at h
  | case5 c cs t l hcs ih =>
    simp only [List.cons_append, cutLiteral] at h ⊢
    obtain ⟨rfl, hleft⟩ := Prod.mk.inj h
    rw [ih (Prod.ext rfl hleft)]
  | case6 c cs hquote hfeed hlast hescape t l hcs ih =>
    have hback : c ≠ '\\' := by
      rintro rfl
      cases cs with
      | nil => exact hlast rfl rfl
      | cons d cs => exact hescape d cs rfl rfl
    rw [List.cons_append, cutLiteral_cons hquote hfeed hback] at h ⊢
    obtain ⟨rfl, hleft⟩ := Prod.mk.inj h
    rw [ih (Prod.ext rfl hleft)]

theorem cutLine_extend (hx : isInert x = true) {cs taken left : List Char}
    (h : cutLine (cs ++ [x]) = (taken, left ++ [x])) (rest : List Char) :
    cutLine (cs ++ rest) = (taken, left ++ rest) := by
  obtain ⟨rfl, hleft⟩ := Prod.mk.inj h
  clear h
  induction cs with
  | nil => simp [(ne_of_isInert hx).1] at hleft
  | cons c cs ih =>
    by_cases hc : c = '\n'
    · subst hc
      obtain rfl : '\n' :: cs = left := List.append_cancel_right hleft
      rfl
    · have hne : (c != '\n') = true := by simpa using hc
      simp only [List.cons_append, List.dropWhile_cons, hne, if_true] at hleft
      obtain ⟨htake, hdrop⟩ := Prod.mk.inj (ih hleft)
      simp only [cutLine, List.cons_append, List.takeWhile_cons, List.dropWhile_cons, hne, if_true,
        htake, hdrop]

theorem cutRemark_cons {c : Char} {cs : List Char} (h : ∀ more, c = '*' → cs ≠ '/' :: more) :
    cutRemark (c :: cs) = (c :: (cutRemark cs).1, (cutRemark cs).2) := by
  rw [cutRemark]
  exact fun more hstar hslash => h more hstar hslash

theorem cutRemark_extend (hx : isInert x = true) {cs taken left : List Char}
    (h : cutRemark (cs ++ [x]) = (taken, left ++ [x])) (rest : List Char) :
    cutRemark (cs ++ rest) = (taken, left ++ rest) := by
  fun_induction cutRemark cs generalizing taken with
  | case1 => simp [cutRemark] at h
  | case2 cs =>
    obtain ⟨rfl, hleft⟩ := Prod.mk.inj h
    rw [← List.append_cancel_right hleft]
    rfl
  | case3 c cs hmark t l hcs ih =>
    cases cs with
    | nil =>
      have hnone (cs : List Char) : ∀ more, c = '*' → x :: cs ≠ '/' :: more :=
        fun more _ heq => (ne_of_isInert hx).2.2.1 (List.cons.inj heq).1
      rw [List.singleton_append, cutRemark_cons (hnone [])] at h
      simp [cutRemark] at h
    | cons d cs =>
      -- No closing mark stands here, and none comes about behind the second character.
      have hnone (rest : List Char) : ∀ more, c = '*' → d :: cs ++ rest ≠ '/' :: more := by
        intro more hstar heq
        obtain ⟨rfl, -⟩ := List.cons.inj heq
        exact hmark cs hstar rfl
      rw [List.cons_append, cutRemark_cons (hnone _)] at h ⊢
      obtain ⟨rfl, hleft⟩ := Prod.mk.inj h
      rw [ih (Prod.ext rfl hleft)]

/-- What a text begins with when another character is put behind it. -/
theorem exists_cons_of_append_singleton {c : Char} {cs more : List Char}
    (h : cs ++ [x] = c :: more) (hc : x ≠ c) : ∃ ds, cs = c :: ds ∧ more = ds ++ [x] := by
  cases cs with
  | nil => exact absurd (List.cons.inj h).1 hc
  | cons d ds =>
    obtain ⟨rfl, rfl⟩ := List.cons.inj h
    exact ⟨ds, rfl, rfl⟩

theorem cutComment?_extend (hx : isInert x = true) {cs taken left : List Char}
    (h : cutComment? (cs ++ [x]) = some (taken, left ++ [x])) (rest : List Char) :
    cutComment? (cs ++ rest) = some (taken, left ++ rest) := by
  obtain ⟨-, hhash, hslash, hstar⟩ := ne_of_isInert hx
  unfold cutComment? at h
  split at h
  · next heq =>
    obtain ⟨ds, rfl, rfl⟩ := exists_cons_of_append_singleton heq hhash
    obtain ⟨rfl, hleft⟩ := Prod.mk.inj (Option.some.inj h)
    show some ('#' :: (cutLine (ds ++ rest)).1, (cutLine (ds ++ rest)).2) = _
    rw [cutLine_extend hx (Prod.ext rfl hleft)]
    rfl
  · next heq =>
    obtain ⟨ds, rfl, hmore⟩ := exists_cons_of_append_singleton heq hslash
    obtain ⟨es, rfl, rfl⟩ := exists_cons_of_append_singleton hmore.symm hslash
    obtain ⟨rfl, hleft⟩ := Prod.mk.inj (Option.some.inj h)
    show some ('/' :: '/' :: (cutLine (es ++ rest)).1, (cutLine (es ++ rest)).2) = _
    rw [cutLine_extend hx (Prod.ext rfl hleft)]
    rfl
  · next heq =>
    obtain ⟨ds, rfl, hmore⟩ := exists_cons_of_append_singleton heq hslash
    obtain ⟨es, rfl, rfl⟩ := exists_cons_of_append_singleton hmore.symm hstar
    obtain ⟨rfl, hleft⟩ := Prod.mk.inj (Option.some.inj h)
    show some ('/' :: '*' :: (cutRemark (es ++ rest)).1, (cutRemark (es ++ rest)).2) = _
    rw [cutRemark_extend hx (Prod.ext rfl hleft)]
  · cases h

/-- A character that makes no comment of a slash in front of it. -/
def EndsSlash (rest : List Char) : Prop :=
  ∀ c ∈ rest.head?, c ≠ '/' ∧ c ≠ '*'

theorem cutComment?_eq_none_extend {c : Char} {cs : List Char}
    (h : cutComment? (c :: (cs ++ [x])) = none) {rest : List Char} (hrest : EndsSlash rest) :
    cutComment? (c :: (cs ++ rest)) = none := by
  have hhash : c ≠ '#' := by
    rintro rfl
    cases h
  apply cutComment?_eq_none hhash
  rintro rfl d more heq
  cases cs with
  | nil =>
    rw [List.nil_append] at heq
    exact hrest d (heq ▸ rfl)
  | cons e es =>
    -- The same character stands behind the slash, whatever follows that.
    obtain ⟨rfl, -⟩ := List.cons.inj heq
    constructor
    · rintro rfl
      cases h
    · rintro rfl
      cases h

/-- A lexeme that such a character does not belong to is the first one whatever comes instead. -/
theorem next_extend (hx : isInert x = true) {c : Char} {cs left : List Char} {l : Lexeme}
    (h : next c (cs ++ [x]) = (l, left ++ [x])) {rest : List Char} (hrest : EndsSlash rest) :
    next c (cs ++ rest) = (l, left ++ rest) := by
  unfold next at h
  split at h
  · next taken left' hcomment =>
    obtain ⟨rfl, rfl⟩ := Prod.mk.inj h
    rw [← List.cons_append] at hcomment
    rw [next, ← List.cons_append, cutComment?_extend hx hcomment]
  · next hcomment =>
    unfold next
    rw [cutComment?_eq_none_extend hcomment hrest]
    split at h
    · next hquote =>
      cases hcut : cutLiteral (cs ++ [x]) with
      | mk t l' =>
        rw [hcut] at h
        obtain ⟨rfl, rfl⟩ := Prod.mk.inj h
        simp only [hquote, if_true, cutLiteral_extend hx hcut]
    · next hquote =>
      split at h
      · next hopen =>
        obtain ⟨rfl, hleft⟩ := Prod.mk.inj h
        obtain rfl := List.append_cancel_right hleft
        simp [hopen]
      · next hopen =>
        split at h
        · next hclose =>
          obtain ⟨rfl, hleft⟩ := Prod.mk.inj h
          obtain rfl := List.append_cancel_right hleft
          simp [hclose]
        · next hclose =>
          obtain ⟨rfl, hleft⟩ := Prod.mk.inj h
          obtain rfl := List.append_cancel_right hleft
          simp [hquote, hopen, hclose]

end Lexeme

/-! ## Going on with a text -/

/-- Text that a character puts one more lexeme to keeps its lexemes, and what comes instead has its
own. -/
theorem ofText_append_of_isInert {x : Char} (hx : isInert x = true) {cs : List Char} {l : Lexeme}
    (h : ofText (cs ++ [x]) = ofText cs ++ [l]) {rest : List Char} (hrest : EndsSlash rest) :
    ofText (cs ++ rest) = ofText cs ++ ofText rest := by
  fun_induction ofText cs with
  | case1 => rfl
  | case2 c cs ih =>
    rw [List.cons_append, ofText_cons, List.cons_append] at h
    obtain ⟨hl, hmore⟩ := List.cons.inj h
    -- Both texts have the same first lexeme, so the one has a character more behind it.
    have hleft : (next c (cs ++ [x])).2 = (next c cs).2 ++ [x] := by
      have hshort := text_next_append c cs
      have hlong := text_next_append c (cs ++ [x])
      rw [hl, ← List.cons_append, ← hshort, List.append_assoc] at hlong
      exact List.append_cancel_left hlong
    rw [hleft] at hmore
    have hnext := next_extend hx (Prod.ext hl hleft) hrest
    rw [List.cons_append, ofText_cons, hnext, ih hmore, List.cons_append]

/-- A text ends outside of strings and comments: a blank behind it is a lexeme of its own. -/
def EndsOutside (cs : List Char) : Prop :=
  ofText (cs ++ [' ']) = ofText cs ++ [other ' ']

instance (cs : List Char) : Decidable (EndsOutside cs) :=
  inferInstanceAs (Decidable (_ = _))

/-- Text that ends outside keeps its lexemes, and what follows has its own. -/
theorem EndsOutside.ofText_append {cs : List Char} (h : EndsOutside cs) {rest : List Char}
    (hrest : EndsSlash rest) : ofText (cs ++ rest) = ofText cs ++ ofText rest :=
  ofText_append_of_isInert (by decide) h hrest

/-! ## Comments -/

/-- What begins a comment up to the end of its line. -/
inductive Mark where
  | hash
  | slashes
deriving DecidableEq, Repr

def Mark.chars : Mark → List Char
  | hash => ['#']
  | slashes => ['/', '/']

/-- A comment up to the end of its line. -/
def remark (mark : Mark) (text : List Char) : List Char :=
  mark.chars ++ ' ' :: text

/-- Text that is empty or begins with a line feed. -/
def IsLineEnd (rest : List Char) : Prop :=
  rest = [] ∨ ∃ more, rest = '\n' :: more

theorem IsLineEnd.endsSlash {rest : List Char} (h : IsLineEnd rest) : EndsSlash rest := by
  rcases h with rfl | ⟨more, rfl⟩
  · exact fun c hc => by cases hc
  · exact fun c hc => Option.some.inj hc ▸ by decide

theorem cutLine_append_of_isLineEnd {text rest : List Char} (htext : '\n' ∉ text)
    (hrest : IsLineEnd rest) : cutLine (text ++ rest) = (text, rest) := by
  have hall : ∀ c ∈ text, (c != '\n') = true := by
    intro c hc
    rw [bne_iff_ne]
    rintro rfl
    exact htext hc
  have htake : rest.takeWhile (· != '\n') = [] ∧ rest.dropWhile (· != '\n') = rest := by
    rcases hrest with rfl | ⟨more, rfl⟩ <;> simp
  rw [cutLine, List.takeWhile_append_of_pos hall, List.dropWhile_append_of_pos hall, htake.1,
    htake.2, List.append_nil]

/-- A comment up to the end of its line is one lexeme. -/
theorem ofText_remark (mark : Mark) {text rest : List Char} (htext : '\n' ∉ text)
    (hrest : IsLineEnd rest) :
    ofText (remark mark text ++ rest) = comment (remark mark text) :: ofText rest := by
  have hblank : '\n' ∉ ' ' :: text := by simp [htext]
  have hcut := cutLine_append_of_isLineEnd hblank hrest
  cases mark with
  | hash =>
    have hnext : next '#' (' ' :: text ++ rest) = (comment ('#' :: ' ' :: text), rest) := by
      rw [next, cutComment?, hcut]
    show ofText ('#' :: (' ' :: text ++ rest)) = _
    rw [ofText_cons, hnext]
    rfl
  | slashes =>
    have hnext : next '/' ('/' :: (' ' :: text ++ rest)) =
        (comment ('/' :: '/' :: ' ' :: text), rest) := by
      rw [next, cutComment?, hcut]
    show ofText ('/' :: '/' :: (' ' :: text ++ rest)) = _
    rw [ofText_cons, hnext]
    rfl

/-- A blank and a comment at a place outside are two lexemes more. -/
theorem EndsOutside.ofText_remark {cs : List Char} (h : EndsOutside cs) (mark : Mark)
    {text rest : List Char} (htext : '\n' ∉ text) (hrest : IsLineEnd rest) :
    ofText (cs ++ ' ' :: (remark mark text ++ rest)) =
      ofText cs ++ other ' ' :: comment (remark mark text) :: ofText rest := by
  have hblank : EndsSlash (' ' :: (remark mark text ++ rest)) :=
    fun c hc => Option.some.inj hc ▸ by decide
  have hsplit : ofText (' ' :: (remark mark text ++ rest)) =
      other ' ' :: ofText (remark mark text ++ rest) :=
    (hasLexemes_char (by decide)) (remark mark text ++ rest)
  rw [h.ofText_append hblank, hsplit, Hcl.ofText_remark mark htext hrest]

end Schematic.Hcl
