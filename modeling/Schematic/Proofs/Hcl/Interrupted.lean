import Schematic.Hcl.Configuration
import Schematic.Proofs.Hcl.Body
import Schematic.Proofs.Hcl.Digits
import Schematic.Proofs.Hcl.Header
import Schematic.Proofs.Hcl.Line
import Schematic.Proofs.Hcl.Overlong

/-!
# Digits around a comment

A comment within a number is left out before the number is read, so the digits in front of it and
behind it are read as one number. A text may thus hold a number that is too long without any run
of digits that is.

## Main definitions

- `interrupted` — a configuration with a comment within the default of a variable

## Main statements

- `hasShortRuns_interrupted` — the runs of digits on both sides count on their own
- `configuration_interrupted` — the tree of such a text does not look at the default
- `variableDetails_interrupted` — the details of its variables read the digits as one number
-/

namespace Schematic.Hcl

open Lexeme
open Text (unlines unlines_cons unlines_append)

/-- The lines in front of the variable. -/
def openingLines : List (List Char) :=
  ["terraform \x7b".toList, ['}']]

/-- The line that opens the variable. -/
def variableLine : List Char :=
  "variable \"x\" \x7b".toList

/-- The line of the default. -/
def defaultLine (front back : List Char) : List Char :=
  "  default = ".toList ++ (front ++ '/' :: '*' :: '*' :: '/' :: back)

/-- A configuration with a variable whose default has a comment between its digits. -/
def interrupted (front back : List Char) : List Char :=
  unlines openingLines ++ (variableLine ++ '\n' :: unlines [defaultLine front back, ['}']])

variable {front back : List Char}

/-! ## Digits -/

theorem isPlain_of_isDecimalDigit {c : Char} (h : Text.isDecimalDigit c = true) :
    isPlain c = true :=
  isPlain_of_class h (by decide)

theorem feed_not_mem_digits (h : ∀ c ∈ front, Text.isDecimalDigit c = true) : '\n' ∉ front :=
  Text.not_mem_of_class h (by decide)

/-- A text that is not long has no long runs. -/
theorem hasShortRuns_of_length_le {cs : List Char} (h : cs.length ≤ digitLimit) :
    HasShortRuns cs :=
  fun _ hrun _ => Nat.le_trans hrun.length_le h

/-- The comment ends the run in front of it. -/
theorem hasShortRuns_interrupted (hfront : front.length ≤ digitLimit)
    (hback : back.length ≤ digitLimit) : HasShortRuns (interrupted front back) := by
  -- The runs end at the blank before the digits, at both slashes and at the end of the line.
  have hsplit : interrupted front back =
      unlines openingLines ++ variableLine ++ "\n  default =".toList ++
        ' ' :: (front ++ '/' :: ('*' :: ['*'] ++ '/' :: (back ++ '\n' :: ['}', '\n']))) := by
    unfold interrupted defaultLine
    simp only [unlines_cons, List.append_assoc, List.cons_append, List.nil_append]
    rfl
  rw [hsplit, hasShortRuns_append_cons (by decide), hasShortRuns_append_cons (by decide),
    hasShortRuns_append_cons (by decide), hasShortRuns_append_cons (by decide)]
  exact ⟨hasShortRuns_of_length_le (by decide), hasShortRuns_of_length_le hfront,
    hasShortRuns_of_length_le (by decide), hasShortRuns_of_length_le hback,
    hasShortRuns_of_length_le (by decide)⟩

/-! ## Headers -/

section Headers

variable (hfront : ∀ c ∈ front, Text.isDecimalDigit c = true)
  (hback : ∀ c ∈ back, Text.isDecimalDigit c = true)

include hfront hback

theorem feed_not_mem_defaultLine : '\n' ∉ defaultLine front back := by
  have hword : '\n' ∉ "  default = ".toList := by decide
  unfold defaultLine
  simp only [List.mem_append, List.mem_cons, hword, feed_not_mem_digits hfront,
    feed_not_mem_digits hback]
  decide

theorem isNoHeader_defaultLine {keyword : List Char} (h : IsKeyword keyword) :
    IsNoHeader keyword (defaultLine front back) := by
  refine ⟨feed_not_mem_defaultLine hfront hback, fun rest => ?_⟩
  show header? keyword (' ' :: ' ' :: ("default".toList ++
    ' ' :: '=' :: (' ' :: ((front ++ '/' :: '*' :: '*' :: '/' :: back) ++ '\n' :: rest)))) = none
  rw [header?_gap h (by decide), header?_gap h (by decide),
    header?_assignment h (by decide) (by decide)]

/-- Behind the line that opens the variable there is no header. -/
theorem isNoHeader_of_mem_variable {keyword : List Char} (h : IsKeyword keyword) :
    ∀ line ∈ [defaultLine front back, ['}']], IsNoHeader keyword line := by
  simp only [List.forall_mem_cons]
  exact ⟨isNoHeader_defaultLine hfront hback h,
    ⟨by decide, fun rest => header?_closeBrace h _⟩, by simp⟩

omit hfront hback in
theorem isNoHeader_of_mem_openingLines {k : Char} {ks : List Char} (h : IsKeyword (k :: ks))
    (hk : k ≠ 't') : ∀ line ∈ openingLines, IsNoHeader (k :: ks) line := by
  unfold openingLines
  simp only [List.forall_mem_cons]
  exact ⟨⟨by decide, fun _ => header?_eq_none_of_ne (by decide) hk⟩,
    ⟨by decide, fun rest => header?_closeBrace h _⟩, by simp⟩

/-- The text has blocks of no keyword but one. -/
theorem blocks_interrupted_of_ne (keyword : String) {k : Char} {ks : List Char}
    (hchars : keyword.toList = k :: ks) (h : IsKeyword (k :: ks)) (ht : k ≠ 't') (hv : k ≠ 'v') :
    blocks keyword (interrupted front back) = [] := by
  have hlines := headersFrom_unlines (isNoHeader_of_mem_variable hfront hback h)
    (0 + (unlines openingLines).length + variableLine.length + 1) []
  rw [List.append_nil] at hlines
  rw [blocks, headers, hchars, interrupted,
    headersFrom_unlines (isNoHeader_of_mem_openingLines h ht),
    headersFrom_line (by decide) (header?_eq_none_of_ne (by decide) hv), hlines]
  rfl

/-! ## The variable -/

/-- The body of the variable. -/
def interruptedBody (front back : List Char) : List Char :=
  '\n' :: (defaultLine front back ++ ['\n'])

theorem headers_interrupted :
    headers "variable".toList (interrupted front back) = [⟨14, ["x"], 27⟩] := by
  have hkeyword : IsKeyword "variable".toList := ⟨by decide, by decide⟩
  have hlines := headersFrom_unlines (isNoHeader_of_mem_variable hfront hback hkeyword) 29 []
  rw [List.append_nil] at hlines
  have hbefore : ∀ line ∈ openingLines, IsNoHeader "variable".toList line :=
    @isNoHeader_of_mem_openingLines 'v' "ariable".toList hkeyword (by decide)
  have hlabel (rest : List Char) : header? "variable".toList (variableLine ++ '\n' :: rest) =
      some ([['x']], '\n' :: rest) :=
    rfl
  rw [headers, interrupted, headersFrom_unlines hbefore,
    headersFrom_header (by decide) (by decide) (hlabel _)]
  exact congrArg _ hlines

theorem hasLexemes_interruptedBody : HasLexemes (interruptedBody front back)
    (('\n' :: ("  default = ".toList ++ front)).map other ++
      comment ['/', '*', '*', '/'] :: (back ++ ['\n']).map other) := by
  have hplainFront : ∀ c ∈ '\n' :: ("  default = ".toList ++ front), isPlain c = true := by
    have hword : ∀ c ∈ '\n' :: "  default = ".toList, isPlain c = true := by decide
    intro c hc
    rw [← List.cons_append] at hc
    rcases List.mem_append.mp hc with hc | hc
    · exact hword c hc
    · exact isPlain_of_isDecimalDigit (hfront c hc)
  have hplainBack : ∀ c ∈ back ++ ['\n'], isPlain c = true := by
    intro c hc
    rcases List.mem_append.mp hc with hc | hc
    · exact isPlain_of_isDecimalDigit (hback c hc)
    · exact List.mem_singleton.mp hc ▸ by decide
  have hcomment : HasLexemes ['/', '*', '*', '/'] [comment ['/', '*', '*', '/']] := by
    intro rest
    show ofText ('/' :: '*' :: '*' :: '/' :: rest) = _
    rw [ofText_cons]
    rfl
  -- Plain characters on both sides of the comment.
  have hbody : interruptedBody front back = '\n' :: ("  default = ".toList ++ front) ++
      (['/', '*', '*', '/'] ++ (back ++ ['\n'])) := by
    unfold interruptedBody defaultLine
    simp only [List.append_assoc, List.cons_append, List.nil_append]
  rw [hbody]
  exact (hasLexemes_plain hplainFront).append (hcomment.append (hasLexemes_plain hplainBack))

/-- The variable is a block with the default in its body. -/
theorem blocks_interrupted : blocks "variable" (interrupted front back) =
    [⟨"variable", ["x"], interruptedBody front back, 14⟩] := by
  have hopening : unlines openingLines ++ variableLine = "terraform ".toList ++ (['{'] ++ (['\n'] ++
      (['}'] ++ ("\nvariable ".toList ++ (inQuotes ['x'] ++ ([' '] ++ ['{'])))))) := by decide
  obtain ⟨ls, hlexemes⟩ : ∃ ls, HasLexemes (unlines openingLines ++ variableLine)
      (ls ++ [openBrace]) := by
    have hlabel := (@hasLexemes_inQuotes ['x'] (by decide)).append
      ((hasLexemes_char (c := ' ') (by decide)).append hasLexemes_openBrace)
    have hword := (@hasLexemes_plain "\nvariable ".toList (by decide)).append hlabel
    have hfeed := (hasLexemes_char (c := '\n') (by decide)).append
      (hasLexemes_closeBrace.append hword)
    have hall := (@hasLexemes_plain "terraform ".toList (by decide)).append
      (hasLexemes_openBrace.append hfeed)
    rw [← hopening] at hall
    simp only [← List.append_assoc] at hall
    exact ⟨_, hall⟩
  have hbody := hasLexemes_interruptedBody hfront hback
  -- The comment may hold what it wants: no lexeme of the body is a brace.
  have hbalanced : Balanced (('\n' :: ("  default = ".toList ++ front)).map other ++
      comment ['/', '*', '*', '/'] :: (back ++ ['\n']).map other) := by
    refine Balanced.of_forall fun l hl => ?_
    rcases List.mem_append.mp hl with hl | hl
    · obtain ⟨c, -, rfl⟩ := List.mem_map.mp hl
      simp
    · rcases List.mem_cons.mp hl with rfl | hl
      · simp
      · obtain ⟨c, -, rfl⟩ := List.mem_map.mp hl
        simp
  have htext : interrupted front back =
      unlines openingLines ++ variableLine ++ (interruptedBody front back ++ '}' :: ['\n']) := by
    unfold interrupted interruptedBody
    simp only [unlines_cons, List.append_assoc, List.cons_append, List.nil_append]
    rfl
  rw [blocks, headers_interrupted hfront hback,
    closedBlocks_cons hlexemes (hbody.fillsBlock hbalanced) htext rfl (Nat.zero_le _)]
  rfl

/-- At the top level of the body the digits are joined. -/
theorem assignments_interruptedBody :
    assignments (interruptedBody front back) = [("default".toList, front ++ back)] := by
  have hflat (cs : List Char) : ∀ l ∈ cs.map other, l.isFlat = true := by
    intro l hl
    obtain ⟨c, -, rfl⟩ := List.mem_map.mp hl
    rfl
  have htext (cs : List Char) : (cs.map other).flatMap text = cs := by
    induction cs with
    | nil => rfl
    | cons c cs ih => rw [List.map_cons, List.flatMap_cons, ih]; rfl
  have hdigits : ∀ c ∈ front ++ back, Text.isDecimalDigit c = true := by
    intro c hc
    exact (List.mem_append.mp hc).elim (hfront c) (hback c)
  -- The comment is left out, and the digits on both sides move together.
  have htop : (split (interruptedBody front back)).top =
      '\n' :: (("  default = ".toList ++ (front ++ back)) ++ '\n' :: []) := by
    have hlast := splitLexemes_flat (hflat (back ++ ['\n']))
    rw [split, (hasLexemes_interruptedBody hfront hback).ofText_eq, splitLexemes_flat (hflat _),
      splitLexemes, ← List.append_nil ((back ++ ['\n']).map other), hlast, htext, htext,
      splitLexemes]
    simp
  have hbreak : ∀ c ∈ "  default = ".toList ++ (front ++ back), Text.isLineBreak c = false := by
    have hword : ∀ c ∈ "  default = ".toList, Text.isLineBreak c = false := by decide
    intro c hc
    rcases List.mem_append.mp hc with hc | hc
    · exact hword c hc
    · exact Text.isLineBreak_eq_false_of_isBlank_eq_false
        (Text.isBlank_eq_false_of_isDecimalDigit (hdigits c hc))
  have hlines : Text.lines (split (interruptedBody front back)).top =
      [[], "  default = ".toList ++ (front ++ back)] := by
    rw [htop, Text.lines_feed, Text.lines_append hbreak]
    rfl
  have hassign : assignment? ("  default = ".toList ++ (front ++ back)) =
      some ("default".toList, front ++ back) := by
    have happend := @assignment?_append 'd' "efault".toList (' ' :: (front ++ back))
      (by decide) (by decide)
    have htrim : Text.trim (' ' :: (front ++ back)) = front ++ back :=
      Text.trim_of_forall fun c hc => Text.isBlank_eq_false_of_isDecimalDigit (hdigits c hc)
    rw [htrim] at happend
    exact happend
  rw [assignments, hlines]
  simp only [List.filterMap_cons, hassign]
  rfl

/-- Digits around a comment that are too many together are refused. -/
theorem variableDetails_interrupted (hne : front ≠ [])
    (hlength : digitLimit < (front ++ back).length) :
    variableDetails (interrupted front back) =
      .error (.tooManyDigits (front ++ back).length) := by
  have hdigits : ∀ c ∈ front ++ back, Text.isDecimalDigit c = true := by
    intro c hc
    exact (List.mem_append.mp hc).elim (hfront c) (hback c)
  have hscalar := scalar_tooManyDigits (by simp [hne]) hdigits hlength
  have hdetail : addDetail [] "default".toList (front ++ back) =
      .error (.tooManyDigits (front ++ back).length) := by
    rw [addDetail, if_neg (by decide), if_pos rfl, hscalar]
    rfl
  have hdetails : details (interruptedBody front back) =
      .error (.tooManyDigits (front ++ back).length) := by
    rw [details, assignments_interruptedBody hfront hback, List.foldlM_cons]
    simp only [hdetail]
    rfl
  rw [variableDetails, blocks_interrupted hfront hback, List.foldlM_cons]
  simp only [hdetails]
  rfl

/-- The tree of the text holds the name of the variable only. -/
theorem configuration_interrupted : configuration (interrupted front back) =
    .ok [("variable", .map [("x", named "x")])] := by
  have hnone := blocks_interrupted_of_ne hfront hback
  rw [configuration, hnone "provider" rfl ⟨by decide, by decide⟩ (by decide) (by decide),
    hnone "resource" rfl ⟨by decide, by decide⟩ (by decide) (by decide),
    hnone "data" rfl ⟨by decide, by decide⟩ (by decide) (by decide),
    hnone "module" rfl ⟨by decide, by decide⟩ (by decide) (by decide),
    blocks_interrupted hfront hback]
  rfl

end Headers

end Schematic.Hcl
