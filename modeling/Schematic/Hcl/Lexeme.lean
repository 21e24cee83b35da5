/-!
# Lexemes of a configuration text

The pieces that brace matching distinguishes: string literals, comments, the two braces, and all
other characters one by one. Cutting a text into lexemes loses nothing, so positions in the text
are sums of lengths of lexemes.

A string literal runs to its closing quote; a backslash takes the next character with it, also
across a line end. Without a closing quote it ends before the line end. A comment runs from `#`
or `//` to before the line end, or from `/*` to `*/`; without `*/` it runs to the end.

## Main definitions

- `Lexeme`, `Lexeme.text` — the pieces and the text of a piece
- `Lexeme.ofText` — the lexemes of a text

## Main statements

- `Lexeme.flatMap_text_ofText` — the texts of the lexemes join to the text
-/

namespace Schematic.Hcl

/-- A piece of a configuration text. -/
inductive Lexeme where
  /-- A string literal with its quotes. -/
  | literal (text : List Char)
  /-- A comment with its marks, without the line end. -/
  | comment (text : List Char)
  | openBrace
  | closeBrace
  /-- Any other character. -/
  | other (c : Char)
deriving DecidableEq, Repr

namespace Lexeme

/-- The characters of a lexeme. -/
def text : Lexeme → List Char
  | literal t => t
  | comment t => t
  | openBrace => ['{']
  | closeBrace => ['}']
  | other c => [c]

/-! ## The two lexemes of many characters -/

/-- What belongs to a string literal behind its opening quote, and what follows. -/
def cutLiteral : List Char → List Char × List Char
  | [] => ([], [])
  | '"' :: rest => (['"'], rest)
  -- A literal that is not closed ends with its line, and the line end is left.
  | '\n' :: rest => ([], '\n' :: rest)
  | ['\\'] => (['\\'], [])
  | '\\' :: c :: rest => let (taken, left) := cutLiteral rest; ('\\' :: c :: taken, left)
  | c :: rest => let (taken, left) := cutLiteral rest; (c :: taken, left)

/-- What belongs to a comment up to the end of its line, and what follows. -/
def cutLine (cs : List Char) : List Char × List Char :=
  (cs.takeWhile (· != '\n'), cs.dropWhile (· != '\n'))

/-- What belongs to a comment up to its closing mark, and what follows. -/
def cutRemark : List Char → List Char × List Char
  | [] => ([], [])
  | '*' :: '/' :: rest => (['*', '/'], rest)
  | c :: rest => let (taken, left) := cutRemark rest; (c :: taken, left)

theorem cutLiteral_append (cs : List Char) : (cutLiteral cs).1 ++ (cutLiteral cs).2 = cs := by
  fun_induction cutLiteral cs <;> simp_all

theorem cutLine_append (cs : List Char) : (cutLine cs).1 ++ (cutLine cs).2 = cs :=
  List.takeWhile_append_dropWhile

theorem cutRemark_append (cs : List Char) : (cutRemark cs).1 ++ (cutRemark cs).2 = cs := by
  fun_induction cutRemark cs <;> simp_all

private theorem length_snd_le {cut : List Char → List Char × List Char}
    (h : ∀ cs, (cut cs).1 ++ (cut cs).2 = cs) (cs : List Char) :
    (cut cs).2.length ≤ cs.length := by
  have := congrArg List.length (h cs)
  simp only [List.length_append] at this
  omega

/-- A comment at the front of a text, and what follows. -/
def cutComment? : List Char → Option (List Char × List Char)
  | '#' :: rest => let (taken, left) := cutLine rest; some ('#' :: taken, left)
  | '/' :: '/' :: rest => let (taken, left) := cutLine rest; some ('/' :: '/' :: taken, left)
  | '/' :: '*' :: rest => let (taken, left) := cutRemark rest; some ('/' :: '*' :: taken, left)
  | _ => none

theorem append_of_cutComment? {cs taken left : List Char}
    (h : cutComment? cs = some (taken, left)) : taken ++ left = cs := by
  unfold cutComment? at h
  split at h <;> simp only [Option.some.injEq, Prod.mk.injEq, reduceCtorEq] at h <;>
    obtain ⟨rfl, rfl⟩ := h
  · simp [cutLine_append]
  · simp [cutLine_append]
  · simp [cutRemark_append]

theorem length_lt_of_cutComment? {cs taken left : List Char}
    (h : cutComment? cs = some (taken, left)) : left.length < cs.length := by
  have happ := append_of_cutComment? h
  have hne : taken ≠ [] := by
    unfold cutComment? at h
    split at h <;> simp only [Option.some.injEq, Prod.mk.injEq, reduceCtorEq] at h <;>
      (rw [← h.1]; simp)
  rw [← happ, List.length_append]
  have := List.length_pos_iff.2 hne
  omega

/-! ## Cutting a text -/

/-- The lexeme at the front of a text that is not empty, and what follows. -/
def next (c : Char) (rest : List Char) : Lexeme × List Char :=
  match cutComment? (c :: rest) with
  | some (taken, left) => (comment taken, left)
  -- Braces in literals and comments are no braces, so these two come first.
  | none =>
    if c = '"' then
      let (taken, left) := cutLiteral rest
      (literal ('"' :: taken), left)
    else if c = '{' then (openBrace, rest)
    else if c = '}' then (closeBrace, rest)
    else (other c, rest)

theorem text_next_append (c : Char) (rest : List Char) :
    (next c rest).1.text ++ (next c rest).2 = c :: rest := by
  unfold next
  split
  · rename_i h
    exact append_of_cutComment? h
  · split
    · rename_i h
      subst h
      simp [text, cutLiteral_append]
    · split
      · rename_i h
        simp [text, h]
      · split
        · rename_i h
          simp [text, h]
        · simp [text]

theorem length_next_lt (c : Char) (rest : List Char) :
    (next c rest).2.length < (c :: rest).length := by
  unfold next
  split
  · rename_i h
    exact length_lt_of_cutComment? h
  · have := length_snd_le cutLiteral_append rest
    split
    · simp
      omega
    · split
      · simp
      · split <;> simp

/-- The lexemes of a text. -/
def ofText (cs : List Char) : List Lexeme :=
  match cs with
  | [] => []
  | c :: rest => (next c rest).1 :: ofText (next c rest).2
termination_by cs.length
decreasing_by exact length_next_lt c rest

theorem ofText_nil : ofText [] = [] := by
  rw [ofText]

theorem ofText_cons (c : Char) (rest : List Char) :
    ofText (c :: rest) = (next c rest).1 :: ofText (next c rest).2 := by
  rw [ofText]

/-- Cutting a text into lexemes loses nothing. -/
theorem flatMap_text_ofText (cs : List Char) : (ofText cs).flatMap text = cs := by
  fun_induction ofText cs with
  | case1 => rfl
  | case2 c rest ih => simp [ih, text_next_append]

end Lexeme

end Schematic.Hcl
