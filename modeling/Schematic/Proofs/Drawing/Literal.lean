import Schematic.Proofs.Drawing.Reference

/-!
# Literals in expressions

A string literal parts an expression like a blank: the references are those in front of it and
those behind it, whatever it holds. But the end of an expression is looked for before its literals
are, so a closing brace within a literal ends the expression there. Then the references behind the
literal are lost, and what the literal holds behind the brace is text like any other, in which an
expression may begin.

## Main definitions

- `quoting` — an interpolation with a literal in it
- `spilled?` — the references behind the first closing brace of a literal
- `AreInterchangeable` — literals that give the same references

## Main statements

- `traversals_append_blank` — a blank parts an expression
- `referencesInText_quoting` — a literal without a closing brace parts one, too
- `referencesInText_quoting_brace` — and one with a closing brace ends it
- `areInterchangeable_iff` — which literals are interchangeable
-/

namespace Schematic.Drawing

/-! ## Expressions with a blank -/

theorem name?_append_blank (cs rest : List Char) : name? (cs ++ ' ' :: rest) =
    (name? cs).map fun found => (found.1, found.2 ++ ' ' :: rest) := by
  have hblank : ∀ c ∈ (' ' :: rest).head?, Text.isIdentRest c = false := by
    intro c hc
    exact Option.some.inj hc ▸ by decide
  cases cs with
  | nil => exact name?_eq_none (by decide) rest
  | cons c cs =>
    rw [List.cons_append, name?, name?]
    split
    · rw [Text.takeWhile_append_of_stop cs hblank, Text.dropWhile_append_of_stop cs hblank]
      rfl
    · rfl

theorem namePair?_append_blank (cs rest : List Char) : namePair? (cs ++ ' ' :: rest) =
    (namePair? cs).map fun found => (found.1, found.2.1, found.2.2 ++ ' ' :: rest) := by
  rw [namePair?, namePair?, name?_append_blank]
  cases name? cs with
  | none => rfl
  | some found =>
    obtain ⟨root, left⟩ := found
    cases left with
    | nil => rfl
    | cons c left =>
      by_cases hpoint : c = '.'
      · subst hpoint
        simp only [Option.map_some, List.cons_append, name?_append_blank, Option.map_map]
        rfl
      · simp [hpoint]

theorem afterDataMark?_eq_some_iff {cs rest : List Char} :
    afterDataMark? cs = some rest ↔ cs = "data.".toList ++ rest := by
  constructor
  · intro h
    unfold afterDataMark? at h
    split at h
    · exact Option.some.inj h ▸ rfl
    · cases h
  · rintro rfl
    rfl

theorem afterDataMark?_append_blank (cs rest : List Char) :
    afterDataMark? (cs ++ ' ' :: rest) = (afterDataMark? cs).map (· ++ ' ' :: rest) := by
  cases hmark : afterDataMark? cs with
  | some after =>
    rw [afterDataMark?_eq_some_iff.mp hmark]
    rfl
  | none =>
    rw [Option.map_none, ← Option.not_isSome_iff_eq_none, Option.isSome_iff_exists]
    rintro ⟨after, hafter⟩
    -- There is no blank in the mark, so it would stand in front of the blank.
    rcases List.append_eq_append_iff.mp (afterDataMark?_eq_some_iff.mp hafter) with
      ⟨more, hdata, hrest⟩ | ⟨more, hcs, -⟩
    · cases more with
      | nil => rw [afterDataMark?_eq_some_iff.mpr (by simpa using hdata.symm)] at hmark; cases hmark
      | cons c more =>
        obtain ⟨rfl, -⟩ := List.cons.inj hrest
        exact absurd (by rw [hdata]; simp) (show ' ' ∉ "data.".toList by decide)
    · rw [afterDataMark?_eq_some_iff.mpr hcs] at hmark
      cases hmark

theorem traversal?_append_blank (cs rest : List Char) : traversal? (cs ++ ' ' :: rest) =
    (traversal? cs).map fun found => (found.1, found.2 ++ ' ' :: rest) := by
  have hmarked : (afterDataMark? (cs ++ ' ' :: rest)).bind namePair? =
      ((afterDataMark? cs).bind namePair?).map fun found =>
        (found.1, found.2.1, found.2.2 ++ ' ' :: rest) := by
    rw [afterDataMark?_append_blank]
    cases afterDataMark? cs with
    | none => rfl
    | some after => exact namePair?_append_blank after rest
  rw [traversal?, traversal?, hmarked, namePair?_append_blank]
  cases (afterDataMark? cs).bind namePair? with
  | some found => rfl
  | none => cases namePair? cs <;> rfl

/-- A blank parts an expression: a reference stands in front of it or behind it. -/
theorem traversals_append_blank (joined : Bool) (cs rest : List Char) :
    traversals joined (cs ++ ' ' :: rest) = traversals joined cs ++ traversals false rest := by
  fun_induction traversals joined cs with
  | case1 joined =>
    cases joined with
    | true => rw [List.nil_append, traversals, if_pos rfl]; rfl
    | false => exact traversals_of_none (traversal?_eq_none (by decide) rest)
  | case2 c cs ih => rw [List.cons_append, traversals, if_pos rfl, ih]
  | case3 joined c cs hjoined t left hfound ih =>
    obtain rfl := Bool.eq_false_iff.mpr hjoined
    -- The blank is no part of a name, so the traversal found is the same.
    have hlonger := traversal?_append_blank (c :: cs) rest
    rw [hfound] at hlonger
    rw [traversals_of_some hlonger, ih, List.cons_append]
  | case4 joined c cs hjoined hnone ih =>
    obtain rfl := Bool.eq_false_iff.mpr hjoined
    have hlonger := traversal?_append_blank (c :: cs) rest
    rw [hnone, Option.map_none, List.cons_append] at hlonger
    rw [List.cons_append, traversals_of_none hlonger, ih]

/-! ## Expressions with a literal -/

/-- Text that may stand between quotes. -/
def IsLiteral (cs : List Char) : Prop :=
  ∀ c ∈ cs, c ≠ '"' ∧ c ≠ '\\'

instance (cs : List Char) : Decidable (IsLiteral cs) :=
  inferInstanceAs (Decidable (∀ c ∈ cs, c ≠ '"' ∧ c ≠ '\\'))

theorem heads_append_quote {front : List Char} (h : '"' ∉ front) (joined : Bool)
    (rest : List Char) : heads joined (front ++ '"' :: rest) =
      heads joined front ++ heads false (afterLiteral rest) := by
  have hfront : blankLiterals front = front := by
    simpa [blankLiterals] using blankLiterals_append h []
  rw [heads, blankLiterals_append h, blankLiterals, if_pos rfl, traversals_append_blank, heads,
    hfront]
  rfl

/-- A literal parts an expression, whatever it holds. -/
theorem heads_append_literal {front literal : List Char} (hfront : '"' ∉ front)
    (h : IsLiteral literal) (joined : Bool) (back : List Char) :
    heads joined (front ++ '"' :: (literal ++ '"' :: back)) =
      heads joined front ++ heads false back := by
  rw [heads_append_quote hfront, afterLiteral_append h]
  rfl

/-- Without an end it goes up to the end of the expression. -/
theorem afterLiteral_of_not_mem {cs : List Char} (h : '"' ∉ cs) : afterLiteral cs = [] := by
  fun_induction afterLiteral cs with
  | case1 => rfl
  | case2 rest => simp at h
  | case3 => rfl
  | case4 c rest ih => exact ih (by simp_all)
  | case5 c rest _ _ _ ih => exact ih (by simp_all)

/-! ## Interpolations with a literal -/

/-- An opener of an expression. -/
def opener : List Char := ['$', '{']

/-- Text that may stand around a literal. -/
structure IsAround (cs : List Char) : Prop where
  quote_not_mem : '"' ∉ cs
  brace_not_mem : '}' ∉ cs
  opener_not_infix : ¬opener <:+: cs

/-- An interpolation with a literal between two texts. -/
def quoting (front literal back : List Char) : String :=
  Hcl.interpolated (front ++ '"' :: (literal ++ '"' :: back))

/-- Where no opener stands, the search goes on behind the character. -/
theorem interpolations_cons {c : Char} {rest : List Char} (h : ¬opener <+: c :: rest) :
    Text.interpolations (c :: rest) = Text.interpolations rest := by
  rw [Text.interpolations]
  rintro after rfl rfl
  exact h ⟨after, rfl⟩

theorem interpolations_of_not_infix {cs : List Char} (h : ¬opener <:+: cs) :
    Text.interpolations cs = [] := by
  induction cs with
  | nil => rw [Text.interpolations]
  | cons c cs ih =>
    rw [interpolations_cons fun hstart => h hstart.isInfix]
    exact ih fun hrest => h (hrest.trans (List.suffix_cons c cs).isInfix)

variable {front literal back : List Char}

/-- Without a closing brace in it, a literal parts an interpolation into two. -/
theorem referencesInText_quoting (hfront : IsAround front) (hback : IsAround back)
    (h : IsLiteral literal) (hbrace : '}' ∉ literal) :
    referencesInText (quoting front literal back) =
      referencesInText (Hcl.interpolated front) ++ referencesInText (Hcl.interpolated back) := by
  have hinner : '}' ∉ front ++ '"' :: (literal ++ '"' :: back) := by
    simp [hfront.brace_not_mem, hbrace, hback.brace_not_mem]
  rw [quoting, referencesInText_interpolated hinner,
    referencesInText_interpolated hfront.brace_not_mem,
    referencesInText_interpolated hback.brace_not_mem, targets,
    heads_append_literal hfront.quote_not_mem h, List.filterMap_append]
  rfl

/-- Behind a quote that is open to the end there is nothing to be found. -/
theorem targets_append_quote (hfront : '"' ∉ front) (hback : '"' ∉ back) :
    targets (front ++ '"' :: back) = targets front := by
  rw [targets, heads_append_quote hfront, afterLiteral_of_not_mem hback, heads_nil,
    List.append_nil]
  rfl

/-- What is left of a text with a quote in it: an expression that is open in front of the quote
ends there, and none begins behind it. -/
theorem flatMap_targets_append_quote (hback : IsAround back) {left : List Char}
    (hleft : '"' ∉ left) :
    (Text.interpolations (left ++ '"' :: (back ++ ['}']))).flatMap targets =
      (Text.interpolations (left ++ ['}'])).flatMap targets := by
  -- The induction follows the search for expressions in front of the quote.
  fun_induction Text.interpolations left with
  | case1 =>
    -- No expression is open at the quote, and none begins there or behind it.
    have hnone : ¬opener <:+: '"' :: (back ++ ['}']) := by
      rw [← List.nil_append ('"' :: _), Text.infix_append_cons_iff (by decide),
        Text.infix_append_cons_iff (by decide)]
      have hempty : ¬opener <:+: [] := by decide
      rintro (hstands | hstands | hstands)
      · exact hempty hstands
      · exact hback.opener_not_infix hstands
      · exact hempty hstands
    rw [List.nil_append, interpolations_of_not_infix hnone, List.nil_append,
      interpolations_of_not_infix (by decide)]
  | case2 rest inner left hcut ih =>
    obtain ⟨rfl, hinner⟩ := Text.append_of_cutAtChar? hcut
    simp only [List.cons_append, List.append_assoc]
    rw [Text.interpolations_append hinner, Text.interpolations_append hinner, List.flatMap_cons,
      List.flatMap_cons, ih (by simp_all)]
  | case3 rest hcut =>
    -- An expression is open at the quote: there its targets end, as the quote is not closed.
    have hrest := Text.not_mem_of_cutAtChar?_eq_none hcut
    have hquote : '"' ∉ rest := by simp_all
    have hinner : '}' ∉ rest ++ '"' :: back := by simp [hrest, hback.brace_not_mem]
    have hassoc : rest ++ '"' :: (back ++ ['}']) = rest ++ '"' :: back ++ ['}'] := by simp
    simp only [List.cons_append]
    rw [hassoc, Text.interpolations_append hinner, Text.interpolations_append hrest, List.flatMap_cons,
      List.flatMap_cons, targets_append_quote hquote hback.quote_not_mem]
  | case4 c rest hother ih =>
    -- An opener is two characters, but the second one cannot be the quote or the brace behind.
    have hlonger {d : Char} (hd : d ≠ '{') (after : List Char) :
        ¬opener <+: c :: (rest ++ d :: after) := by
      intro hstart
      obtain ⟨hdollar, hstart⟩ := List.cons_prefix_cons.mp hstart
      cases rest with
      | nil => exact hd (List.cons_prefix_cons.mp hstart).1.symm
      | cons e rest =>
        exact hother rest hdollar.symm (by rw [(List.cons_prefix_cons.mp hstart).1])
    rw [List.cons_append, List.cons_append, interpolations_cons (hlonger (by decide) _),
      interpolations_cons (hlonger (by decide) _), ih (by simp_all)]

/-- A closing brace in a literal ends the interpolation. The text behind it goes up to the end of
the literal, and what stands behind the literal is lost. -/
theorem referencesInText_quoting_brace (hfront : IsAround front) (hback : IsAround back)
    {within left : List Char} (hwithin : IsLiteral (within ++ '}' :: left))
    (hbrace : '}' ∉ within) :
    referencesInText (quoting front (within ++ '}' :: left) back) =
      referencesInText (Hcl.interpolated front) ++
        referencesInText (String.ofList (left ++ ['}'])) := by
  have hinner : '}' ∉ front ++ '"' :: within := by simp [hfront.brace_not_mem, hbrace]
  -- A literal has no quote in it, so there is none on either side of its brace.
  have hquote : '"' ∉ within := fun hmem => (hwithin '"' (by simp [hmem])).1 rfl
  have hleft : '"' ∉ left := fun hmem => (hwithin '"' (by simp [hmem])).1 rfl
  have hsplit : front ++ '"' :: (within ++ '}' :: left ++ '"' :: back) ++ ['}'] =
      front ++ '"' :: within ++ '}' :: (left ++ '"' :: (back ++ ['}'])) := by simp
  rw [referencesInText_eq_flatMap, quoting, toList_interpolated, hsplit,
    Text.interpolations_append hinner, List.flatMap_cons,
    targets_append_quote hfront.quote_not_mem hquote, flatMap_targets_append_quote hback hleft,
    referencesInText_interpolated hfront.brace_not_mem, referencesInText_eq_flatMap,
    String.toList_ofList]

/-! ## Literals that make a difference -/

/-- The targets that a literal leaves behind its first closing brace, each where it comes first. -/
def spilled? (literal : List Char) : Option (List String) :=
  (Text.cutAtChar? '}' literal).map fun cut =>
    (referencesInText (String.ofList (cut.2 ++ ['}']))).eraseDups

/-- Texts for the same references: it makes no difference which of them stands in a literal, in
any attribute and with any text around. -/
def AreInterchangeable (literal other : List Char) : Prop :=
  ∀ key front back, key ≠ "depends_on" → IsAround front → IsAround back →
    references [(key, .str (quoting front literal back))] =
      references [(key, .str (quoting front other back))]

/-- Behind the targets in front of a literal come those behind it, or those that it spills. -/
theorem references_quoting {key : String} (hkey : key ≠ "depends_on") (hfront : IsAround front)
    (hback : IsAround back) (h : IsLiteral literal) :
    references [(key, .str (quoting front literal back))] =
      (targets front ++ (spilled? literal).getD (targets back)).eraseDups := by
  have hstrings : (Value.str (quoting front literal back)).strings =
      [quoting front literal back] := rfl
  rw [references_singleton hkey, hstrings, List.flatMap_singleton, spilled?]
  cases hcut : Text.cutAtChar? '}' literal with
  | none =>
    rw [referencesInText_quoting hfront hback h (Text.not_mem_of_cutAtChar?_eq_none hcut),
      referencesInText_interpolated hfront.brace_not_mem,
      referencesInText_interpolated hback.brace_not_mem]
    rfl
  | some cut =>
    obtain ⟨within, left⟩ := cut
    obtain ⟨rfl, hwithin⟩ := Text.append_of_cutAtChar? hcut
    rw [referencesInText_quoting_brace hfront hback h hwithin,
      referencesInText_interpolated hfront.brace_not_mem, Option.map_some, Option.getD_some,
      Text.eraseDups_append_eraseDups]

/-- What is spilled holds no target twice. -/
theorem eraseDups_of_spilled? {names : List String} (h : spilled? literal = some names) :
    names.eraseDups = names := by
  obtain ⟨cut, -, rfl⟩ := Option.map_eq_some_iff.mp h
  exact Text.eraseDups_append_eraseDups [] _

theorem isAround_nil : IsAround [] :=
  ⟨by decide, by decide, by decide⟩

/-- Two texts are interchangeable if and only if both are without a closing brace, or if what they
leave behind their first ones refers to the same. -/
theorem areInterchangeable_iff {literal other : List Char} (h : IsLiteral literal)
    (hother : IsLiteral other) :
    AreInterchangeable literal other ↔ spilled? literal = spilled? other := by
  constructor
  · intro hsame
    have hkey : "id" ≠ "depends_on" := by decide
    have htargets : targets [] = [] := by decide +kernel
    have hback (back : List Char) (hback : IsAround back) :
        ((spilled? literal).getD (targets back)).eraseDups =
          ((spilled? other).getD (targets back)).eraseDups := by
      have hequal := hsame "id" [] back hkey isAround_nil hback
      rw [references_quoting hkey isAround_nil hback h,
        references_quoting hkey isAround_nil hback hother, htargets] at hequal
      exact hequal
    -- A text that spills is told by what stands behind the literal: it is lost.
    have hnone := hback [] isAround_nil
    have hone := hback "a.b".toList ⟨by decide, by decide, by decide⟩
    have htarget : targets "a.b".toList = ["a_b"] := by decide +kernel
    rw [htargets] at hnone
    rw [htarget] at hone
    cases hl : spilled? literal with
    | none =>
      cases ho : spilled? other with
      | none => rfl
      | some names =>
        rw [hl, ho] at hnone hone
        exact absurd (hnone.trans hone.symm) (by decide)
    | some names =>
      cases ho : spilled? other with
      | none =>
        rw [hl, ho] at hnone hone
        exact absurd (hnone.symm.trans hone) (by decide)
      | some others =>
        rw [hl, ho] at hnone
        rw [← eraseDups_of_spilled? hl, ← eraseDups_of_spilled? ho]
        exact congrArg some hnone
  · intro hsame key front back hkey hfront hback
    rw [references_quoting hkey hfront hback h, references_quoting hkey hfront hback hother, hsame]

theorem areInterchangeable_iff_formats :
    AreInterchangeable "%s".toList "aws_vpc.main".toList ∧
    ¬AreInterchangeable "%s".toList "\x7b%s\x7d".toList := by
  have hplain : IsLiteral "%s".toList := by decide
  refine ⟨(areInterchangeable_iff hplain (by decide)).mpr (by decide +kernel), fun hsame => ?_⟩
  exact absurd ((areInterchangeable_iff hplain (by decide)).mp hsame) (by decide +kernel)

/-- The reference behind a format with braces is not found. -/
theorem not_areInterchangeable : ¬∀ literal other : List Char, IsLiteral literal →
    IsLiteral other → AreInterchangeable literal other := by
  intro hall
  have hfront : IsAround "format(".toList := ⟨by decide, by decide, by decide +kernel⟩
  have hback : IsAround ", aws_vpc.main.id)".toList := ⟨by decide, by decide, by decide +kernel⟩
  have hsame := hall "%s".toList "\x7b%s\x7d".toList (by decide) (by decide) "id" _ _ (by decide)
    hfront hback
  have hplain : references [("id", .str (quoting "format(".toList "%s".toList
      ", aws_vpc.main.id)".toList))] = ["aws_vpc_main"] := by decide +kernel
  have hbraces : references [("id", .str (quoting "format(".toList "\x7b%s\x7d".toList
      ", aws_vpc.main.id)".toList))] = [] := by decide +kernel
  rw [hplain, hbraces] at hsame
  cases hsame

end Schematic.Drawing
