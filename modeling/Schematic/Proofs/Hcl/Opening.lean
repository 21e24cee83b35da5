import Schematic.Proofs.Hcl.Heading
import Schematic.Proofs.Hcl.Outside

/-!
# Headers whose brace counts

Headers and braces are found by two readers that disagree. A header takes its labels from one quote
to the next, whereas a string literal passes over a quote behind a backslash, may start in front
of the line of the header, and is no literal at all within a comment. So the brace of a header may
be part of a literal or of a comment.

If it is not, both readers agree on all of the header. Once the reader of lexemes has come to stand
inside of a label it takes the closing quote of that label for an opening one, and so on with every
label up to the brace, which it never reaches; nor can a comment lead it out of the labels, as a
comment in front of the brace ends with a slash, and only labels hold slashes. Hence the line of
such a header starts outside of literals and comments, and its labels are literals.

## Main definitions

- `OpensBehind` — the brace behind a text counts
- `FirstLexeme` — what the first lexeme of a text can be
- `IsInLabel` — the rest of a heading from within a label on

## Main statements

- `not_opensBehind_of_isInLabel` — no brace counts behind such a rest
- `OpensBehind.exists_append` — the line of a header whose brace counts is read on its own
- `OpensBehind.isFlat_heading` — its heading has no comments and no braces
-/

namespace Schematic.Hcl

open Lexeme

variable {keyword front heading back rest : List Char} {labels : List (List Char)}
  {ls : List Lexeme}

/-! ## The first lexeme -/

/-- What the first lexeme of a text can be, and what it leaves. -/
inductive FirstLexeme (c : Char) (rest : List Char) : Lexeme → List Char → Prop where
  /-- A comment up to the end of its line. -/
  | line {text left : List Char} (hc : c = '#' ∨ c = '/') (hfeed : '\n' ∉ text)
      (hleft : IsLineEnd left) : FirstLexeme c rest (comment text) left
  /-- A comment between marks, up to the second one or to the end. -/
  | remark {text left : List Char} (hc : c = '/')
      (hend : left = [] ∨ ∃ inner, text = inner ++ ['/']) : FirstLexeme c rest (comment text) left
  | literal {taken left : List Char} (hc : c = '"') (hcut : cutLiteral rest = (taken, left)) :
      FirstLexeme c rest (literal ('"' :: taken)) left
  | single {l : Lexeme} (hc : c ≠ '"') (htext : l.text = [c]) : FirstLexeme c rest l rest

theorem isLineEnd_cutLine (cs : List Char) : '\n' ∉ (cutLine cs).1 ∧ IsLineEnd (cutLine cs).2 := by
  induction cs with
  | nil => exact ⟨List.not_mem_nil, .inl rfl⟩
  | cons c cs ih =>
    by_cases hc : c = '\n'
    · subst hc
      exact ⟨by simp [cutLine], .inr ⟨cs, by simp [cutLine]⟩⟩
    · have hne : (c != '\n') = true := bne_iff_ne.mpr hc
      simpa [cutLine, hne, Ne.symm hc] using ih

theorem eq_nil_or_exists_of_cutRemark (cs : List Char) :
    (cutRemark cs).2 = [] ∨ ∃ inner, (cutRemark cs).1 = inner ++ ['/'] := by
  fun_induction cutRemark cs with
  | case1 => exact .inl rfl
  | case2 rest => exact .inr ⟨['*'], rfl⟩
  | case3 c rest _ taken left hrest ih =>
    rw [hrest] at ih
    rcases ih with hnil | ⟨inner, hinner⟩
    · exact .inl hnil
    · exact .inr ⟨c :: inner, congrArg (c :: ·) hinner⟩

theorem firstLexeme_of_cutComment? {c : Char} {taken left : List Char}
    (h : cutComment? (c :: rest) = some (taken, left)) :
    FirstLexeme c rest (comment taken) left := by
  unfold cutComment? at h
  split at h
  · next cs heq =>
    obtain ⟨rfl, -⟩ := List.cons.inj heq
    obtain ⟨rfl, rfl⟩ := Prod.mk.inj (Option.some.inj h)
    obtain ⟨hfeed, hleft⟩ := isLineEnd_cutLine cs
    exact .line (.inl rfl) (List.not_mem_cons_of_ne_of_not_mem (by decide) hfeed) hleft
  · next cs heq =>
    obtain ⟨rfl, -⟩ := List.cons.inj heq
    obtain ⟨rfl, rfl⟩ := Prod.mk.inj (Option.some.inj h)
    obtain ⟨hfeed, hleft⟩ := isLineEnd_cutLine cs
    have hslashes := List.not_mem_cons_of_ne_of_not_mem (by decide : '\n' ≠ '/') hfeed
    exact .line (.inr rfl) (List.not_mem_cons_of_ne_of_not_mem (by decide) hslashes) hleft
  · next cs heq =>
    obtain ⟨rfl, -⟩ := List.cons.inj heq
    obtain ⟨rfl, rfl⟩ := Prod.mk.inj (Option.some.inj h)
    refine .remark rfl ((eq_nil_or_exists_of_cutRemark cs).imp_right ?_)
    rintro ⟨inner, hinner⟩
    exact ⟨'/' :: '*' :: inner, congrArg (fun t => '/' :: '*' :: t) hinner⟩
  · cases h

theorem firstLexeme_next (c : Char) (rest : List Char) :
    FirstLexeme c rest (next c rest).1 (next c rest).2 := by
  unfold next
  split
  · next taken left hcomment => exact firstLexeme_of_cutComment? hcomment
  · split
    · next hc => exact .literal hc rfl
    · next hquote =>
      split
      · next hc => exact .single hquote (by rw [hc]; rfl)
      · split
        · next hc => exact .single hquote (by rw [hc]; rfl)
        · exact .single hquote rfl

/-! ## Braces that count -/

/-- The brace behind a text is a lexeme, and these are the lexemes of the text in front of it. -/
def OpensBehind (front back : List Char) (ls : List Lexeme) : Prop :=
  ofText (front ++ '{' :: back) = ls ++ openBrace :: ofText back ∧ ls.flatMap text = front

theorem OpensBehind.eq_nil (h : OpensBehind [] back ls) : ls = [] := by
  have hnil := h.2
  cases ls with
  | nil => rfl
  | cons l ls =>
    have hl : l ∈ ofText ([] ++ '{' :: back) := by
      rw [h.1]
      exact List.mem_cons_self
    rw [List.flatMap_cons, List.append_eq_nil_iff] at hnil
    exact absurd hnil.1 (text_ne_nil_of_mem_ofText hl)

/-- The first lexeme ends in front of the brace, and behind it the brace still counts. -/
theorem OpensBehind.exists_first {c : Char} (h : OpensBehind (c :: front) back ls) :
    ∃ l rest ms, ls = l :: ms ∧ l.text ++ rest = c :: front ∧
      FirstLexeme c (front ++ '{' :: back) l (rest ++ '{' :: back) ∧ OpensBehind rest back ms := by
  obtain ⟨htext, hfront⟩ := h
  cases ls with
  | nil => cases hfront
  | cons l ms =>
    rw [List.cons_append, ofText_cons, List.cons_append] at htext
    obtain ⟨rfl, hrest⟩ := List.cons.inj htext
    have hleft : (next c (front ++ '{' :: back)).2 = ms.flatMap text ++ '{' :: back := by
      rw [← flatMap_text_ofText (next c (front ++ '{' :: back)).2, hrest, List.flatMap_append,
        List.flatMap_cons, flatMap_text_ofText]
      rfl
    refine ⟨_, ms.flatMap text, ms, rfl, hfront, ?_, ?_, rfl⟩
    · rw [← hleft]
      exact firstLexeme_next c (front ++ '{' :: back)
    · rw [← hleft, hrest]

theorem not_isLineEnd {rest : List Char} (hfeed : '\n' ∉ rest) :
    ¬IsLineEnd (rest ++ '{' :: back) := by
  rintro (hnil | ⟨more, hmore⟩)
  · simp at hnil
  · cases rest with
    | nil => exact absurd (List.cons.inj hmore).1 (by decide)
    | cons d rest =>
      obtain ⟨rfl, -⟩ := List.cons.inj hmore
      exact hfeed List.mem_cons_self

/-- Plain characters in front are lexemes of their own. -/
theorem OpensBehind.of_plain {plain : List Char} (hplain : ∀ c ∈ plain, isPlain c = true)
    (h : OpensBehind (plain ++ front) back ls) :
    ∃ ms, ls = plain.map other ++ ms ∧ OpensBehind front back ms := by
  induction plain generalizing ls with
  | nil => exact ⟨ls, rfl, h⟩
  | cons c plain ih =>
    rw [List.forall_mem_cons] at hplain
    have hchar := hasLexemes_char hplain.1 ((plain ++ front) ++ '{' :: back)
    obtain ⟨htext, hfront⟩ := h
    cases ls with
    | nil => cases hfront
    | cons l ls =>
      have heq : other c :: ofText ((plain ++ front) ++ '{' :: back) =
          l :: (ls ++ openBrace :: ofText back) := hchar.symm.trans htext
      obtain ⟨rfl, hrest⟩ := List.cons.inj heq
      obtain ⟨ms, rfl, hms⟩ := ih hplain.2 ⟨hrest, (List.cons.inj hfront).2⟩
      exact ⟨ms, rfl, hms⟩

/-! ## Inside of a label -/

/-- The rest of a heading from within a label on. -/
def IsInLabel (rest : List Char) : Prop :=
  ∃ label quoted labels, rest = label ++ '"' :: quoted ∧ '"' ∉ label ∧ '\n' ∉ label ∧
    QuotedLabels quoted labels

theorem IsInLabel.feed_not_mem (h : IsInLabel rest) : '\n' ∉ rest := by
  obtain ⟨label, quoted, labels, rfl, -, hfeed, hquoted⟩ := h
  simp [hfeed, hquoted.feed_not_mem]

/-- A slash in a label, or in one of those behind it. -/
theorem isInLabel_of_label {label quoted inner : List Char} (hquote : '"' ∉ label)
    (hfeed : '\n' ∉ label) (hquoted : QuotedLabels quoted labels)
    (hmore : ∀ inner, quoted = inner ++ '/' :: rest → IsInLabel rest)
    (h : label ++ '"' :: quoted = inner ++ '/' :: rest) : IsInLabel rest := by
  rcases List.append_eq_append_iff.mp h with ⟨more, rfl, hquoted'⟩ | ⟨more, rfl, hrest⟩
  · cases more with
    | nil => exact absurd (List.cons.inj hquoted').1 (by decide)
    | cons d more => exact hmore more (List.cons.inj hquoted').2
  · cases more with
    | nil => exact absurd (List.cons.inj hrest).1 (by decide)
    | cons d more =>
      obtain ⟨rfl, rfl⟩ := List.cons.inj hrest
      refine ⟨more, quoted, labels, rfl, fun hmem => hquote ?_, fun hmem => hfeed ?_, hquoted⟩
      all_goals exact List.mem_append_right _ (List.mem_cons_of_mem _ hmem)

/-- Behind a slash one is inside of a label. -/
theorem QuotedLabels.isInLabel {quoted inner : List Char} (h : QuotedLabels quoted labels)
    (heq : quoted = inner ++ '/' :: rest) : IsInLabel rest := by
  induction h generalizing inner with
  | nil => simp at heq
  | gap hc _ ih =>
    cases inner with
    | nil =>
      obtain ⟨rfl, -⟩ := List.cons.inj heq
      cases hc
    | cons d inner => exact ih (List.cons.inj heq).2
  | label hquote hfeed hquoted ih =>
    cases inner with
    | nil => exact absurd (List.cons.inj heq).1 (by decide)
    | cons d inner =>
      exact isInLabel_of_label hquote hfeed hquoted (fun _ => ih) (List.cons.inj heq).2

theorem IsInLabel.of_slash {inner : List Char} (h : IsInLabel (inner ++ '/' :: rest)) :
    IsInLabel rest := by
  obtain ⟨label, quoted, labels, heq, hquote, hfeed, hquoted⟩ := h
  exact isInLabel_of_label hquote hfeed hquoted (fun _ => hquoted.isInLabel) heq.symm

/-- A literal that starts among gaps and labels ends with the opening quote of a label. -/
theorem QuotedLabels.isInLabel_of_cutLiteral {quoted : List Char} (h : QuotedLabels quoted labels)
    (hcut : (cutLiteral (quoted ++ '{' :: back)).2 = rest ++ '{' :: back) : IsInLabel rest := by
  induction h with
  | nil =>
    -- Without a label it takes the brace.
    rw [List.nil_append, cutLiteral_cons (by decide) (by decide) (by decide)] at hcut
    have hlength := congrArg List.length (cutLiteral_append back)
    rw [List.length_append] at hlength
    have hleft := congrArg List.length hcut
    simp only [List.length_append, List.length_cons] at hleft
    omega
  | gap hc _ ih =>
    have hne : ∀ d, isGap d = false → _ ≠ d := fun d => Text.ne_of_class hc
    rw [List.cons_append, cutLiteral_cons (hne '"' (by decide)) (hne '\n' (by decide))
      (hne '\\' (by decide))] at hcut
    exact ih hcut
  | @label label quoted labels hquote hfeed hquoted ih =>
    have heq : (label ++ '"' :: quoted) ++ '{' :: back = rest ++ '{' :: back := by
      rw [List.cons_append, cutLiteral] at hcut
      exact hcut
    obtain rfl := List.append_cancel_right heq
    exact ⟨label, quoted, labels, rfl, hquote, hfeed, hquoted⟩

/-- The first lexeme from within a label on ends within a label. -/
theorem IsInLabel.of_firstLexeme {c : Char} {more : List Char} {l : Lexeme}
    (h : IsInLabel (c :: more)) (htext : l.text ++ rest = c :: more)
    (hfirst : FirstLexeme c (more ++ '{' :: back) l (rest ++ '{' :: back)) : IsInLabel rest := by
  have hrest : '\n' ∉ rest := fun hmem =>
    h.feed_not_mem (htext ▸ List.mem_append_right _ hmem)
  generalize hleft : rest ++ '{' :: back = left at hfirst
  cases hfirst with
  | line _ _ hend => exact absurd (hleft ▸ hend) (not_isLineEnd hrest)
  | remark _ hend =>
    rcases hend with rfl | ⟨inner, rfl⟩
    · simp at hleft
    · have hwhole : inner ++ '/' :: rest = c :: more := by
        rw [List.append_cons]
        exact htext
      exact IsInLabel.of_slash (hwhole ▸ h)
  | literal hc hcut =>
    subst hc
    obtain ⟨label, quoted, labels, heq, hquote, -, hquoted⟩ := h
    cases label with
    | nil =>
      -- The quote that closes the label opens a literal.
      obtain ⟨-, rfl⟩ := List.cons.inj heq
      apply hquoted.isInLabel_of_cutLiteral
      rw [hcut, hleft]
    | cons d label =>
      obtain ⟨rfl, -⟩ := List.cons.inj heq
      exact absurd List.mem_cons_self hquote
  | single hc hl =>
    rw [hl] at htext
    obtain rfl : rest = more := (List.cons.inj htext).2
    obtain ⟨label, quoted, labels, heq, hquote, hfeed, hquoted⟩ := h
    cases label with
    | nil => exact absurd (List.cons.inj heq).1 hc
    | cons d label =>
      rw [List.mem_cons, not_or] at hquote hfeed
      exact ⟨label, quoted, labels, (List.cons.inj heq).2, hquote.2, hfeed.2, hquoted⟩

/-- No brace counts behind a heading that is read from within a label on. -/
theorem not_opensBehind_of_isInLabel (h : IsInLabel front) : ¬OpensBehind front back ls := by
  intro hopens
  induction ls generalizing front with
  | nil =>
    obtain ⟨label, quoted, labels, rfl, -⟩ := h
    exact absurd hopens.2.symm (by simp)
  | cons l ls ih =>
    obtain ⟨label, quoted, labels, heq, -⟩ := id h
    obtain ⟨c, more, rfl⟩ := List.exists_cons_of_ne_nil (show front ≠ [] by simp [heq])
    obtain ⟨l', rest, ms, hls, htext, hfirst, hms⟩ := hopens.exists_first
    obtain ⟨rfl, rfl⟩ := List.cons.inj hls
    exact ih (h.of_firstLexeme htext hfirst) hms

/-! ## The heading of a header whose brace counts -/

/-- A literal that is read from the opening quote of a label on ends with that label, or takes its
closing quote as an ordinary one and goes on behind it. -/
theorem cutLiteral_label {label : List Char} (hquote : '"' ∉ label) (hfeed : '\n' ∉ label)
    (rest : List Char) : cutLiteral (label ++ '"' :: rest) = (label ++ ['"'], rest) ∨
      cutLiteral (label ++ '"' :: rest) =
        (label ++ '"' :: (cutLiteral rest).1, (cutLiteral rest).2) := by
  induction hlength : label.length using Nat.strongRecOn generalizing label with
  | ind n ih =>
    subst hlength
    cases label with
    | nil => exact .inl rfl
    | cons c label =>
      rw [List.mem_cons, not_or] at hquote hfeed
      by_cases hescape : c = '\\'
      · subst hescape
        cases label with
        -- The backslash takes the closing quote with it.
        | nil => exact .inr rfl
        | cons d label =>
          rw [List.mem_cons, not_or] at hquote hfeed
          have hlt : label.length < ('\\' :: d :: label).length := by
            rw [List.length_cons, List.length_cons]
            omega
          have hrest := ih label.length hlt hquote.2.2 hfeed.2.2 rfl
          simp only [List.cons_append, cutLiteral]
          rcases hrest with hrest | hrest <;> simp [hrest]
      · have hrest := ih label.length (by simp) hquote.2 hfeed.2 rfl
        rw [List.cons_append, cutLiteral_cons (Ne.symm hquote.1) (Ne.symm hfeed.1) hescape]
        rcases hrest with hrest | hrest <;> simp [hrest]

/-- Labels in front of a brace that counts are literals. -/
theorem QuotedLabels.isFlat {quoted : List Char} (h : QuotedLabels quoted labels)
    (hopens : OpensBehind quoted back ls) : ∀ l ∈ ls, l.isFlat = true := by
  induction h generalizing ls with
  | nil => simp [hopens.eq_nil]
  | @gap c quoted _ hc _ ih =>
    have hplain : ∀ d ∈ [c], isPlain d = true :=
      List.forall_mem_singleton.mpr (isPlain_of_class hc (by decide))
    have hopens : OpensBehind ([c] ++ quoted) back ls := hopens
    obtain ⟨ms, rfl, hms⟩ := hopens.of_plain hplain
    exact List.forall_mem_cons.mpr ⟨rfl, ih hms⟩
  | @label label quoted _ hquote hfeed hquoted ih =>
    obtain ⟨l, rest, ms, rfl, htext, hfirst, hms⟩ := hopens.exists_first
    generalize hleft : rest ++ '{' :: back = left at hfirst
    cases hfirst with
    | line hc _ _ => exact absurd hc (by decide)
    | remark hc _ => exact absurd hc (by decide)
    | single hc _ => exact absurd rfl hc
    | literal _ hcut =>
      rw [List.forall_mem_cons]
      refine ⟨rfl, ?_⟩
      rw [List.append_assoc, List.cons_append] at hcut
      rcases cutLiteral_label hquote hfeed (quoted ++ '{' :: back) with hlabel | hlabel
      · rw [hcut] at hlabel
        obtain ⟨-, hrest⟩ := Prod.mk.inj hlabel
        obtain rfl := List.append_cancel_right (hleft.trans hrest)
        exact ih hms
      -- A literal that goes on ends within the next label, if it does not take the brace.
      · rw [hcut] at hlabel
        obtain ⟨-, hrest⟩ := Prod.mk.inj hlabel
        have hin := hquoted.isInLabel_of_cutLiteral (hrest.symm.trans hleft.symm)
        exact absurd hms (not_opensBehind_of_isInLabel hin)

/-- The gaps and the keyword of a heading are plain characters. -/
theorem isPlain_of_isKeyword (hkeyword : IsKeyword keyword) {lead : List Char}
    (hlead : ∀ c ∈ lead, isGap c = true) : ∀ c ∈ lead ++ keyword, isPlain c = true := by
  rw [List.forall_mem_append]
  exact ⟨fun c hc => isPlain_of_class (hlead c hc) (by decide), hkeyword.isPlain⟩

/-- The heading of a header whose brace counts begins with a character of its own, and none of its
lexemes is a comment or a brace. -/
theorem OpensBehind.isFlat_heading (hkeyword : IsKeyword keyword)
    (hheading : IsHeading keyword labels heading) (h : OpensBehind heading back ls) :
    (∃ c ms, ls = other c :: ms) ∧ ∀ l ∈ ls, l.isFlat = true := by
  obtain ⟨lead, quoted, rfl, hlead, hquoted⟩ := hheading
  rw [← List.append_assoc] at h
  obtain ⟨ms, rfl, hms⟩ := h.of_plain (isPlain_of_isKeyword hkeyword hlead)
  constructor
  · obtain ⟨c, word, hword⟩ := List.exists_cons_of_ne_nil
      (show lead ++ keyword ≠ [] by simp [hkeyword.ne_nil])
    exact ⟨c, word.map other ++ ms, by rw [hword]; rfl⟩
  · rw [List.forall_mem_append, List.forall_mem_map]
    exact ⟨fun _ _ => rfl, hquoted.isFlat hms⟩

/-! ## The line of a header whose brace counts -/

/-- Behind a slash in a heading one is inside of a label. -/
theorem IsHeading.isInLabel (hkeyword : IsKeyword keyword) {inner : List Char}
    (h : IsHeading keyword labels (inner ++ '/' :: rest)) : IsInLabel rest := by
  obtain ⟨lead, quoted, heq, hlead, hquoted⟩ := h
  have hplain := isPlain_of_isKeyword hkeyword hlead
  have hslash : '/' ∉ lead ++ keyword := Text.not_mem_of_class hplain (by decide)
  rw [← List.append_assoc] at heq
  rcases List.append_eq_append_iff.mp heq with ⟨more, hword, hrest⟩ | ⟨more, rfl, hquoted'⟩
  · cases more with
    | nil =>
      have hquoted' : quoted = [] ++ '/' :: rest := hrest.symm
      exact hquoted.isInLabel hquoted'
    | cons d more =>
      obtain ⟨rfl, -⟩ := List.cons.inj hrest
      exact absurd (hword ▸ by simp) hslash
  · exact hquoted.isInLabel hquoted'

/-- A literal that starts in front of a heading ends with the opening quote of a label. -/
theorem IsHeading.isInLabel_of_cutLiteral (hkeyword : IsKeyword keyword)
    (h : IsHeading keyword labels heading)
    (hcut : (cutLiteral (heading ++ '{' :: back)).2 = rest ++ '{' :: back) : IsInLabel rest := by
  obtain ⟨lead, quoted, rfl, hlead, hquoted⟩ := h
  have hquotable : IsQuotable (lead ++ keyword) := by
    intro c hc
    rcases List.mem_append.mp hc with hc | hc
    · have hne := fun d => Text.ne_of_class (d := d) (hlead c hc)
      exact ⟨hne '"' (by decide), hne '\\' (by decide), hne '\n' (by decide)⟩
    · have hne := fun d => Text.ne_of_class (d := d) (hkeyword.isIdentRest c hc)
      exact ⟨hne '"' (by decide), hne '\\' (by decide), hne '\n' (by decide)⟩
  rw [← List.append_assoc, List.append_assoc, cutLiteral_quotable hquotable] at hcut
  exact hquoted.isInLabel_of_cutLiteral hcut

/-- A literal ends in front of a line feed, or goes on behind it as if it started there. -/
theorem cutLiteral_feed (line rest : List Char) :
    (∃ more, (cutLiteral (line ++ '\n' :: rest)).2 = more ++ '\n' :: rest) ∨
      (cutLiteral (line ++ '\n' :: rest)).2 = (cutLiteral rest).2 := by
  induction hlength : line.length using Nat.strongRecOn generalizing line with
  | ind n ih =>
    subst hlength
    cases line with
    | nil => exact .inl ⟨[], rfl⟩
    | cons c line =>
      by_cases hquote : c = '"'
      · subst hquote
        exact .inl ⟨line, rfl⟩
      · by_cases hfeed : c = '\n'
        · subst hfeed
          exact .inl ⟨'\n' :: line, rfl⟩
        · by_cases hescape : c = '\\'
          · subst hescape
            cases line with
            -- The backslash takes the line feed with it.
            | nil => exact .inr rfl
            | cons d line =>
              have hlt : line.length < ('\\' :: d :: line).length := by
                rw [List.length_cons, List.length_cons]
                omega
              exact ih line.length hlt line rfl
          · rw [List.cons_append, cutLiteral_cons hquote hfeed hescape]
            exact ih line.length (by simp) line rfl

theorem StartsLine.of_append {more : List Char} (h : StartsLine (front ++ more)) :
    StartsLine more := by
  rcases List.eq_nil_or_concat more with rfl | ⟨lines, c, rfl⟩
  · exact .inl rfl
  · rcases h with hnil | ⟨lines', heq⟩
    · simp at hnil
    · rw [List.concat_eq_append, ← List.append_assoc] at heq
      obtain ⟨-, hlast⟩ := List.append_inj' heq rfl
      exact .inr ⟨lines, by rw [List.concat_eq_append, hlast]⟩

/-- A lexeme that reaches from the lines in front into a heading ends within a label. -/
theorem isInLabel_of_overlap (hkeyword : IsKeyword keyword) {c : Char} {more taken : List Char}
    {l : Lexeme} (hfront : StartsLine (c :: more)) (hne : taken ≠ [])
    (hheading : IsHeading keyword labels (taken ++ rest)) (htext : l.text = c :: more ++ taken)
    (hfirst : FirstLexeme c ((more ++ (taken ++ rest)) ++ '{' :: back) l (rest ++ '{' :: back)) :
    IsInLabel rest := by
  obtain hnil | ⟨lines, hlines⟩ := hfront
  · cases hnil
  generalize hleft : rest ++ '{' :: back = left at hfirst
  cases hfirst with
  | line _ hfeed _ =>
    -- No such comment holds the line feed in front of the heading.
    rw [Lexeme.text] at htext
    exact absurd (by simp [htext, hlines]) hfeed
  | remark _ hend =>
    rcases hend with rfl | ⟨inner, rfl⟩
    · simp at hleft
    · rw [Lexeme.text] at htext
      obtain rfl | ⟨taken, d, rfl⟩ := List.eq_nil_or_concat taken
      · exact absurd rfl hne
      · rw [List.concat_eq_append, ← List.append_assoc] at htext
        obtain ⟨-, hlast⟩ := List.append_inj' htext rfl
        obtain rfl := List.singleton_inj.mp hlast
        rw [List.concat_eq_append, List.append_assoc] at hheading
        exact hheading.isInLabel hkeyword
  | literal hc hcut =>
    subst hc
    cases lines with
    | nil => exact absurd (List.cons.inj hlines).1 (by decide)
    | cons d line =>
      obtain rfl : more = line ++ ['\n'] := (List.cons.inj hlines).2
      rw [List.append_assoc, List.append_assoc, List.singleton_append] at hcut
      rcases cutLiteral_feed line ((taken ++ rest) ++ '{' :: back) with ⟨more, hmore⟩ | hgoes
      · have hends := hleft.trans ((congrArg Prod.snd hcut).symm.trans hmore)
        have hlength := congrArg List.length hends
        simp only [List.length_append, List.length_cons] at hlength
        omega
      · apply hheading.isInLabel_of_cutLiteral hkeyword
        rw [← hgoes, hcut, hleft]
  | single _ hl =>
    rw [hl] at htext
    have hnil := (List.cons.inj htext).2
    exact absurd (List.append_eq_nil_iff.mp hnil.symm).2 hne

/-- If the brace of a header counts, the lexemes in front of it are those of the lines in front
of the header and those of its heading. -/
theorem OpensBehind.exists_append (hkeyword : IsKeyword keyword) (hfront : StartsLine front)
    (hheading : IsHeading keyword labels heading) (h : OpensBehind (front ++ heading) back ls) :
    ∃ fs ms, ls = fs ++ ms ∧ fs.flatMap text = front ∧ OpensBehind heading back ms := by
  induction ls generalizing front with
  | nil =>
    obtain ⟨rfl, -⟩ := List.append_eq_nil_iff.mp h.2.symm
    exact ⟨[], [], rfl, rfl, h⟩
  | cons l ls ih =>
    cases front with
    | nil => exact ⟨[], l :: ls, rfl, rfl, h⟩
    | cons c more =>
      obtain ⟨l', rest, ms, hls, htext, hfirst, hms⟩ := h.exists_first
      obtain ⟨rfl, rfl⟩ := List.cons.inj hls
      have hwhole : l.text ++ rest = (c :: more) ++ heading := htext
      rcases List.append_eq_append_iff.mp hwhole with ⟨behind, hlines, rfl⟩ | ⟨taken, hl, rfl⟩
      -- The lexeme ends in the lines in front.
      · rw [hlines] at hfront
        obtain ⟨fs, ms, rfl, hfs, hms⟩ := ih hfront.of_append hms
        exact ⟨l :: fs, ms, rfl, by rw [List.flatMap_cons, hfs, hlines], hms⟩
      -- It reaches up to the heading at least.
      · by_cases hne : taken = []
        · subst hne
          refine ⟨[l], ls, rfl, ?_, hms⟩
          rw [List.flatMap_singleton, hl, List.append_nil]
        · have hin := isInLabel_of_overlap hkeyword hfront hne hheading hl hfirst
          exact absurd hms (not_opensBehind_of_isInLabel hin)

end Schematic.Hcl
