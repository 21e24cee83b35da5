import Schematic.Text.Blank

/-!
# Trimming and lines

What trimming leaves is a part of the text, and all of a text without blanks at its ends. Lines
that hold no line end of their own are the lines of the text that they are put together to.

## Main definitions

- `unlines` — the text of lines

## Main statements

- `infix_trim`, `trim_eq_self` — what trimming leaves
- `lines_append`, `lines_unlines` — lines in front of others
-/

namespace Schematic.Text

/-! ## Trimming -/

theorem suffix_trimLeft (cs : List Char) : trimLeft cs <:+ cs :=
  List.dropWhile_suffix _

theorem prefix_trimRight (cs : List Char) : trimRight cs <+: cs := by
  have h := (@List.dropWhile_suffix _ cs.reverse isBlank).reverse
  rwa [List.reverse_reverse] at h

theorem infix_trim (cs : List Char) : trim cs <:+: cs :=
  (prefix_trimRight _).isInfix.trans (suffix_trimLeft cs).isInfix

/-- Nothing is trimmed off a text without blanks at its ends. -/
theorem trim_eq_self {cs : List Char} (hfirst : ∀ c ∈ cs.head?, isBlank c = false)
    (hlast : ∀ c ∈ cs.getLast?, isBlank c = false) : trim cs = cs := by
  have hleft : trimLeft cs = cs := by
    cases cs with
    | nil => rfl
    | cons c cs => exact List.dropWhile_cons_of_neg (by simp [hfirst c rfl])
  rw [trim, hleft, trimRight]
  cases hreverse : cs.reverse with
  | nil => exact (List.reverse_eq_nil_iff.mp hreverse).symm ▸ rfl
  | cons c rest =>
    have hc : isBlank c = false := by
      apply hlast
      rw [List.getLast?_eq_head?_reverse, hreverse]
      rfl
    rw [List.dropWhile_cons_of_neg (by simp [hc]), ← hreverse, List.reverse_reverse]

theorem trim_of_forall {cs : List Char} (h : ∀ c ∈ cs, isBlank c = false) :
    trim cs = cs :=
  trim_eq_self (fun c hc => h c (List.mem_of_head? hc)) fun c hc => h c (List.mem_of_getLast? hc)

/-! ## Classes of characters -/

/-- What all characters of a text have in common is decided along the text, and not by going
through all characters that there are. -/
instance (priority := 2000) decidableForallMem (p : Char → Prop) [DecidablePred p]
    (cs : List Char) : Decidable (∀ c ∈ cs, p c) :=
  List.decidableBAll p cs

/-- Characters that a class tells apart are different. -/
theorem ne_of_class {p : Char → Bool} {c d : Char} (hc : p c = true) (hd : p d = false) :
    c ≠ d := by
  rintro rfl
  rw [hc] at hd
  cases hd

theorem not_mem_of_class {p : Char → Bool} {cs : List Char} {d : Char}
    (h : ∀ c ∈ cs, p c = true) (hd : p d = false) : d ∉ cs :=
  fun hmem => ne_of_class (h d hmem) hd rfl

/-- What stands in front of a text that begins outside of a class is taken as it is alone. -/
theorem takeWhile_append_of_stop {p : Char → Bool} (cs : List Char) {rest : List Char}
    (h : ∀ c ∈ rest.head?, p c = false) : (cs ++ rest).takeWhile p = cs.takeWhile p := by
  induction cs with
  | nil =>
    cases rest with
    | nil => rfl
    | cons c rest => exact List.takeWhile_cons_of_neg (by simp [h c rfl])
  | cons c cs ih => rw [List.cons_append, List.takeWhile_cons, List.takeWhile_cons, ih]

theorem dropWhile_append_of_stop {p : Char → Bool} (cs : List Char) {rest : List Char}
    (h : ∀ c ∈ rest.head?, p c = false) : (cs ++ rest).dropWhile p = cs.dropWhile p ++ rest := by
  induction cs with
  | nil =>
    cases rest with
    | nil => rfl
    | cons c rest => exact List.dropWhile_cons_of_neg (by simp [h c rfl])
  | cons c cs ih =>
    rw [List.cons_append, List.dropWhile_cons, List.dropWhile_cons, ih]
    split <;> rfl

/-! ## Lines -/

/-- Lines, each with a line feed at its end. -/
def unlines (lines : List (List Char)) : List Char :=
  lines.flatMap (· ++ ['\n'])

theorem unlines_cons (line : List Char) (lines : List (List Char)) :
    unlines (line :: lines) = line ++ '\n' :: unlines lines := by
  simp [unlines]

theorem unlines_append (lines more : List (List Char)) :
    unlines (lines ++ more) = unlines lines ++ unlines more := by
  simp [unlines]

/-- A line in front of others. -/
theorem lines_append {line : List Char} (h : ∀ c ∈ line, isLineBreak c = false)
    (rest : List Char) : Text.lines (line ++ '\n' :: rest) = line :: Text.lines rest := by
  induction line with
  | nil =>
    rw [List.nil_append, Text.lines, if_pos (by decide)]
    simp
  | cons c line ih =>
    have hc := h c List.mem_cons_self
    rw [List.cons_append, Text.lines, if_neg (by simp [hc]),
      ih fun d hd => h d (List.mem_cons_of_mem _ hd)]
    · rintro _ rfl
      exact absurd hc (by decide)

/-- An empty line in front of others. -/
theorem lines_feed (rest : List Char) : Text.lines ('\n' :: rest) = [] :: Text.lines rest :=
  @lines_append [] (by simp) rest

theorem lines_unlines {lines : List (List Char)}
    (h : ∀ line ∈ lines, ∀ c ∈ line, isLineBreak c = false) (rest : List Char) :
    Text.lines (unlines lines ++ rest) = lines ++ Text.lines rest := by
  induction lines with
  | nil => rfl
  | cons line lines ih =>
    rw [unlines_cons, List.append_assoc, List.cons_append,
      lines_append (h line List.mem_cons_self),
      ih fun l hl => h l (List.mem_cons_of_mem _ hl), List.cons_append]

end Schematic.Text
