import Schematic.Proofs.Hcl.Expression
import Schematic.Proofs.Hcl.Header

/-!
# The lines of a written resource

What each line of a written resource is on its own: which lexemes it has, that it is a header only
if it opens the block, and which assignment or list stands on it.

## Main statements

- `Attribute.isFlat_line`, `Tag.isBraceless_line` — the lexemes of a line
- `Attribute.header?_line`, `Tag.header?_line`, `Resource.header?_headLine` — headers of a line
- `Attribute.assignment?_line`, `Attribute.listStart?_single`, `Attribute.listStart?_dependsOn` —
  what is assigned on a line
-/

namespace Schematic.Hcl

open Lexeme

/-! ## Assignments -/

/-- The identifier in front of a character that is no part of it. -/
theorem identifier?_append {first c : Char} {rest tail : List Char}
    (hfirst : Text.isIdentStart first = true) (hrest : ∀ d ∈ rest, Text.isIdentRest d = true)
    (hc : Text.isIdentRest c = false) :
    identifier? (first :: rest ++ c :: tail) = some (first :: rest, c :: tail) := by
  have hstop : (c :: tail).takeWhile Text.isIdentRest = [] :=
    List.takeWhile_cons_of_neg (by simp [hc])
  have hleft : (c :: tail).dropWhile Text.isIdentRest = c :: tail :=
    List.dropWhile_cons_of_neg (by simp [hc])
  rw [List.cons_append, identifier?, if_pos hfirst, List.takeWhile_append_of_pos hrest,
    List.dropWhile_append_of_pos hrest, hstop, hleft, List.append_nil]

theorem isBlank_eq_false_of_isIdentStart {c : Char} (h : Text.isIdentStart c = true) :
    Text.isBlank c = false :=
  isBlank_eq_false_of_isReferenceRest
    (isReferenceRest_of_isIdentRest (Text.isIdentRest_of_isIdentStart h))

/-- An assignment on a line that is indented. -/
theorem assignment?_append {first : Char} {rest value : List Char}
    (hfirst : Text.isIdentStart first = true) (hrest : ∀ c ∈ rest, Text.isIdentRest c = true) :
    assignment? (' ' :: ' ' :: (first :: rest ++ ' ' :: '=' :: value)) =
      some (first :: rest, Text.trim value) := by
  have htrim : Text.trimLeft (' ' :: ' ' :: (first :: rest ++ ' ' :: '=' :: value)) =
      first :: rest ++ ' ' :: '=' :: value := by
    have hblank := isBlank_eq_false_of_isIdentStart hfirst
    rw [Text.trimLeft, List.dropWhile_cons_of_pos (by decide),
      List.dropWhile_cons_of_pos (by decide), List.cons_append,
      List.dropWhile_cons_of_neg (by simp [hblank])]
  have hequals : Text.trimLeft (' ' :: '=' :: value) = '=' :: value := rfl
  rw [assignment?, htrim, identifier?_append hfirst hrest (by decide)]
  simp only [hequals]

/-- The start of a list on a line that is indented. -/
theorem listStart?_append {first : Char} {rest value : List Char}
    (hfirst : Text.isIdentStart first = true) (hrest : ∀ c ∈ rest, Text.isIdentRest c = true) :
    listStart? (' ' :: ' ' :: (first :: rest ++ ' ' :: '=' :: ' ' :: value)) =
      match value.dropWhile isGap with
      | '[' :: inside => some (first :: rest, inside)
      | _ => none := by
  have hgap := isGap_eq_false_of_isIdentRest (Text.isIdentRest_of_isIdentStart hfirst)
  have hline : (' ' :: ' ' :: (first :: rest ++ ' ' :: '=' :: ' ' :: value)).dropWhile isGap =
      first :: rest ++ ' ' :: '=' :: ' ' :: value := by
    rw [List.dropWhile_cons_of_pos (by decide), List.dropWhile_cons_of_pos (by decide)]
    simp [hgap]
  -- Behind the name only the gaps around the equals sign are left to pass over.
  rw [listStart?, hline, identifier?_append hfirst hrest (by decide)]
  rfl

/-! ## Lines of attributes -/

namespace Attribute

variable (a : Attribute)

/-- The name of an attribute is an identifier. -/
theorem exists_name : ∃ first rest, a.name = first :: rest ∧
    Text.isIdentStart first = true ∧ ∀ c ∈ rest, Text.isIdentRest c = true := by
  cases a with
  | single name expr =>
    exact ⟨name.first, name.rest, rfl, name.isIdentStart_first, name.isIdentRest_rest⟩
  | dependsOn addresses => exact ⟨'d', "epends_on".toList, rfl, by decide, by decide⟩

theorem isIdentRest_name : ∀ c ∈ a.name, Text.isIdentRest c = true := by
  obtain ⟨first, rest, hname, hfirst, hrest⟩ := a.exists_name
  rw [hname]
  intro c hc
  rcases List.mem_cons.mp hc with rfl | hc
  · exact Text.isIdentRest_of_isIdentStart hfirst
  · exact hrest c hc

/-- What is assigned is a text in quotes or holds none. -/
theorem chars_cases : (∃ cs, IsLineText cs ∧ a.chars = inQuotes cs) ∨
    ∀ c ∈ a.chars, isReferenceRest c = true ∨ c = ',' ∨ c = ' ' := by
  cases a with
  | single name expr =>
    rcases expr.chars_cases with h | h
    · exact .inl h
    · exact .inr fun c hc => .inl (h c hc)
  | dependsOn addresses =>
    refine .inr fun c hc => ?_
    rcases List.mem_cons.mp hc with rfl | hc
    · exact .inl (by decide)
    · rcases List.mem_append.mp hc with hc | hc
      · rcases mem_addressList hc with h | rfl | h
        · exact .inl (isReferenceRest_of_isIdentRest h)
        · exact .inl (by decide)
        · exact .inr h
      · rw [List.mem_singleton.mp hc]
        exact .inl (by decide)

/-- The characters in front of what is assigned. -/
theorem mem_front {c : Char} (hc : c ∈ ' ' :: ' ' :: (a.name ++ [' ', '=', ' '])) :
    isReferenceRest c = true ∨ c = '=' ∨ c = ' ' := by
  have hcases : c ∈ a.name ∨ c = '=' ∨ c = ' ' := by
    simp only [List.mem_cons, List.mem_append, List.not_mem_nil] at hc
    grind
  exact hcases.imp_left fun h => isReferenceRest_of_isIdentRest (a.isIdentRest_name c h)

theorem line_eq_append : a.line = ' ' :: ' ' :: (a.name ++ [' ', '=', ' ']) ++ a.chars := by
  simp [line]

/-- A line of an attribute holds no braces and no comments outside of quotes. -/
theorem isFlat_line : IsFlat a.line := by
  rw [line_eq_append]
  refine IsFlat.append (isFlat_plain fun c hc => ?_) ?_
  · rcases a.mem_front hc with h | rfl | rfl
    · exact isPlain_of_isReferenceRest h
    · decide
    · decide
  · rcases a.chars_cases with ⟨cs, hcs, hchars⟩ | hchars
    · rw [hchars]
      exact isFlat_inQuotes (isQuotable_of_isLineText hcs)
    · refine isFlat_plain fun c hc => ?_
      rcases hchars c hc with h | rfl | rfl
      · exact isPlain_of_isReferenceRest h
      · decide
      · decide

/-- Nothing on it ends a line. -/
theorem isLineBreak_line : ∀ c ∈ a.line, Text.isLineBreak c = false := by
  have hreference {c : Char} (h : isReferenceRest c = true) : Text.isLineBreak c = false :=
    Text.isLineBreak_eq_false_of_isBlank_eq_false (isBlank_eq_false_of_isReferenceRest h)
  intro c hc
  rw [line_eq_append] at hc
  rcases List.mem_append.mp hc with hc | hc
  · rcases a.mem_front hc with h | rfl | rfl
    · exact hreference h
    · decide
    · decide
  · rcases a.chars_cases with ⟨cs, hcs, hchars⟩ | hchars
    · exact isLineBreak_inQuotes hcs c (hchars ▸ hc)
    · rcases hchars c hc with h | rfl | rfl
      · exact hreference h
      · decide
      · decide

theorem feed_not_mem_line : '\n' ∉ a.line :=
  fun h => absurd (a.isLineBreak_line '\n' h) (by decide)

/-- It is no header, whatever its name is. -/
theorem header?_line {keyword : List Char} (h : IsKeyword keyword) (rest : List Char) :
    header? keyword (a.line ++ '\n' :: rest) = none := by
  obtain ⟨first, tail, hname, -, -⟩ := a.exists_name
  have hline : a.line ++ '\n' :: rest =
      ' ' :: ' ' :: (a.name ++ ' ' :: '=' :: (' ' :: a.chars ++ '\n' :: rest)) := by
    simp [line]
  rw [hline, header?_gap h (by decide), header?_gap h (by decide)]
  apply header?_assignment h (by simp [hname])
  intro c hc
  have hc := a.isIdentRest_name c hc
  exact ⟨isGap_eq_false_of_isIdentRest hc, Text.ne_of_class hc (by decide),
    Text.ne_of_class hc (by decide)⟩

/-- What is assigned has no blanks at its ends. -/
theorem trim_chars : Text.trim (' ' :: a.chars) = a.chars := by
  have hblank : Text.trim (' ' :: a.chars) = Text.trim a.chars := rfl
  rw [hblank]
  cases a with
  | single name expr =>
    rcases expr.chars_cases with ⟨cs, -, hchars⟩ | hchars
    · rw [chars, hchars, trim_inQuotes]
    · exact Text.trim_of_forall fun c hc => isBlank_eq_false_of_isReferenceRest (hchars c hc)
  | dependsOn addresses =>
    apply Text.trim_eq_self
    · intro c hc
      obtain rfl := Option.some.inj hc
      decide
    · intro c hc
      rw [chars, ← List.cons_append, List.getLast?_concat] at hc
      obtain rfl := Option.some.inj hc
      decide

/-- The assignment on the line. -/
theorem assignment?_line : assignment? a.line = some (a.name, a.chars) := by
  obtain ⟨first, rest, hname, hfirst, hrest⟩ := a.exists_name
  rw [line, hname, assignment?_append hfirst hrest, trim_chars]

/-- A list is no single value. -/
theorem scalar_chars :
    scalar a.chars = .ok (if a.isSingle then some a.value else none) := by
  cases a with
  | single name expr => exact expr.scalar_chars
  | dependsOn addresses => exact scalar_bracket _

/-! ## Lists -/

/-- Where a list may begin: behind the equals sign. -/
theorem listStart?_line (rest : List Char) : listStart? (a.line ++ rest) =
    match (a.chars ++ rest).dropWhile isGap with
    | '[' :: inside => some (a.name, inside)
    | _ => none := by
  obtain ⟨first, tail, hname, hfirst, htail⟩ := a.exists_name
  have hline : a.line ++ rest =
      ' ' :: ' ' :: (first :: tail ++ ' ' :: '=' :: ' ' :: (a.chars ++ rest)) := by
    rw [line, hname]
    simp
  rw [hline, listStart?_append hfirst htail, hname]

/-- A list of addresses starts on its line. -/
theorem listStart?_dependsOn (addresses : List Address) (rest : List Char) :
    listStart? ((dependsOn addresses).line ++ rest) =
      some ("depends_on".toList, addressList addresses ++ ']' :: rest) := by
  have hchars : (dependsOn addresses).chars ++ rest =
      '[' :: (addressList addresses ++ ']' :: rest) := by simp [chars]
  rw [listStart?_line, hchars]
  rfl

/-- A single value begins with no bracket and no gap. -/
theorem exists_chars_single (name : Identifier) (expr : Expr) :
    ∃ c rest, (single name expr).chars = c :: rest ∧ c ≠ '[' ∧ isGap c = false := by
  show ∃ c rest, expr.chars = c :: rest ∧ c ≠ '[' ∧ isGap c = false
  cases expr with
  | text cs h => exact ⟨'"', cs ++ ['"'], rfl, by decide, by decide⟩
  | bool b => cases b <;> exact ⟨_, _, rfl, by decide, by decide⟩
  | int n h =>
    -- A digit or a minus, so neither of the two.
    obtain ⟨c, rest, hchars⟩ : ∃ c rest, (toString n).toList = c :: rest := by
      apply List.exists_cons_of_ne_nil
      rw [toString_eq_ofList, String.toList_ofList]
      simp [Nat.toDigits_ne_nil]
    refine ⟨c, rest, hchars, ?_⟩
    rcases isDigit_of_mem_toString (hchars ▸ List.mem_cons_self : c ∈ (toString n).toList) with
      h | rfl
    · exact ⟨Text.ne_of_class h (by decide), isGap_eq_false_of_class h (by decide) (by decide)⟩
    · exact ⟨by decide, by decide⟩
  | reference address =>
    have hstart := Text.isIdentRest_of_isIdentStart address.head.isIdentStart_first
    exact ⟨address.head.first, _, rfl, Text.ne_of_class hstart (by decide),
      isGap_eq_false_of_isIdentRest hstart⟩

/-- No list starts on the line of a single value. -/
theorem listStart?_single (name : Identifier) (expr : Expr) (rest : List Char) :
    listStart? ((single name expr).line ++ rest) = none := by
  obtain ⟨c, tail, hchars, hbracket, hgap⟩ := exists_chars_single name expr
  rw [listStart?_line, hchars, List.cons_append, List.dropWhile_cons_of_neg (by simp [hgap])]
  split
  · next heq => exact absurd (List.cons.inj heq).1 hbracket
  · rfl

end Attribute

/-! ## Lines of tags -/

theorem isTagRest_of_isIdentStart {c : Char} (h : Text.isIdentStart c = true) :
    isTagRest c = true := by
  have hrest := Text.isIdentRest_of_isIdentStart h
  rw [Text.isIdentRest, Bool.or_eq_true] at hrest
  rcases hrest with hword | hdash
  · simp [isTagRest, hword]
  · simp [isTagRest, hdash]

namespace Tag

variable (tag : Tag)

theorem isTagRest_name : ∀ c ∈ tag.name, isTagRest c = true := by
  intro c hc
  rcases List.mem_cons.mp hc with rfl | hc
  · exact isTagRest_of_isIdentStart tag.isIdentStart_first
  · exact tag.isTagRest_rest c hc

theorem feed_not_mem_line : '\n' ∉ tag.line := by
  have hgap : '\n' ∉ "    ".toList := by decide
  have hname : '\n' ∉ tag.name := Text.not_mem_of_class tag.isTagRest_name (by decide)
  have htext := feed_not_mem_inQuotes tag.isQuotable_text
  simp only [line, List.mem_append, List.mem_cons, hgap, hname, htext]
  decide

/-- It is no header, whatever its name is. -/
theorem header?_line {keyword : List Char} (h : IsKeyword keyword) (rest : List Char) :
    header? keyword (tag.line ++ '\n' :: rest) = none := by
  have hline : tag.line ++ '\n' :: rest = ' ' :: ' ' :: ' ' :: ' ' ::
      (tag.name ++ ' ' :: '=' :: (' ' :: inQuotes tag.text ++ '\n' :: rest)) := by
    simp [line]
  rw [hline, header?_gap h (by decide), header?_gap h (by decide), header?_gap h (by decide),
    header?_gap h (by decide)]
  apply header?_assignment h (by simp [name])
  intro c hc
  have hrest := tag.isTagRest_name c hc
  exact ⟨isGap_eq_false_of_class hrest (by decide) (by decide),
    Text.ne_of_class hrest (by decide), Text.ne_of_class hrest (by decide)⟩

/-- Apart from slashes the characters of a tag name are plain. -/
theorem isPlain_of_isTagRest {c : Char} (h : isTagRest c = true) (hslash : c ≠ '/') :
    isPlain c = true := by
  have hplain : (isTagRest c && c != '/') = true := by simp [h, hslash]
  exact @isPlain_of_class (fun d => isTagRest d && d != '/') c hplain (by decide)

/-- A slash that begins no comment is a lexeme of its own. -/
theorem hasLexemes_slash {d : Char} {cs : List Char} {ls : List Lexeme}
    (hslash : d ≠ '/') (hstar : d ≠ '*') (h : HasLexemes (d :: cs) ls) :
    HasLexemes ('/' :: d :: cs) (other '/' :: ls) := by
  intro rest
  have hcomment : cutComment? ('/' :: (d :: cs ++ rest)) = none := by
    apply cutComment?_eq_none (by decide)
    intro _ e more heq
    obtain ⟨rfl, -⟩ := List.cons.inj heq
    exact ⟨hslash, hstar⟩
  rw [List.cons_append, ofText_cons,
    next_eq_other hcomment (by decide) (by decide) (by decide), h rest]
  rfl

/-- Two slashes begin a comment that takes the rest of the line. -/
theorem hasLexemes_comment {cs : List Char} (h : '\n' ∉ cs) :
    HasLexemes ('/' :: '/' :: (cs ++ ['\n'])) [comment ('/' :: '/' :: cs), other '\n'] := by
  intro rest
  have hall : ∀ c ∈ cs, (c != '\n') = true := by
    intro c hc
    rw [bne_iff_ne]
    rintro rfl
    exact h hc
  have hcut : cutLine (cs ++ '\n' :: rest) = (cs, '\n' :: rest) := by
    rw [cutLine, List.takeWhile_append_of_pos hall, List.dropWhile_append_of_pos hall]
    simp
  have happend : '/' :: '/' :: (cs ++ ['\n']) ++ rest = '/' :: '/' :: (cs ++ '\n' :: rest) := by
    simp
  have hnext : next '/' ('/' :: (cs ++ '\n' :: rest)) =
      (comment ('/' :: '/' :: cs), '\n' :: rest) := by
    rw [next, cutComment?]
    simp only [hcut]
  rw [happend, ofText_cons, hnext]
  exact congrArg _ (hasLexemes_char (by decide) rest)

/-- A tag holds no braces outside of quotes and comments, wherever its name begins one. -/
theorem isBraceless_of_isTagRest {name text : List Char}
    (hname : ∀ c ∈ name, isTagRest c = true) (htext : IsQuotable text) :
    IsBraceless (name ++ (' ' :: '=' :: ' ' :: (inQuotes text ++ ['\n']))) := by
  induction name with
  | nil =>
    have hfront : IsFlat [' ', '=', ' '] := isFlat_plain (by decide)
    have hback : IsFlat (inQuotes text ++ ['\n']) :=
      (isFlat_inQuotes htext).append (isFlat_plain (by decide))
    exact (hfront.append hback).isBraceless
  | cons c name ih =>
    obtain ⟨ls, hls, hbrace⟩ := ih fun d hd => hname d (List.mem_cons_of_mem _ hd)
    have hother (d : Char) : ∀ l ∈ other d :: ls, l ≠ openBrace ∧ l ≠ closeBrace := by
      intro l hl
      rcases List.mem_cons.mp hl with rfl | hl
      · exact ⟨by simp, by simp⟩
      · exact hbrace l hl
    -- A slash is the only character of a name that can begin a comment, namely before another.
    by_cases hc : c = '/'
    · subst hc
      cases name with
      | nil => exact ⟨_, hasLexemes_slash (by decide) (by decide) hls, hother '/'⟩
      | cons d name =>
        have hd := hname d (by simp)
        by_cases hslash : d = '/'
        · subst hslash
          have hline : '\n' ∉ name ++ ' ' :: '=' :: ' ' :: inQuotes text := by
            have hfeed : '\n' ∉ name := fun h => absurd (hname '\n' (by simp [h])) (by decide)
            simp only [List.mem_append, List.mem_cons, hfeed, feed_not_mem_inQuotes htext]
            decide
          refine ⟨_, by simpa using hasLexemes_comment hline, ?_⟩
          simp
        · have hstar : d ≠ '*' := by
            rintro rfl
            exact absurd hd (by decide)
          exact ⟨_, hasLexemes_slash hslash hstar hls, hother '/'⟩
    · have hplain := hasLexemes_char (isPlain_of_isTagRest (hname c List.mem_cons_self) hc)
      exact ⟨_, hplain.append hls, hother c⟩

theorem isBraceless_line : IsBraceless (tag.line ++ ['\n']) := by
  have hgap : IsFlat "    ".toList := isFlat_plain (by decide)
  have hline : tag.line ++ ['\n'] =
      "    ".toList ++ (tag.name ++ (' ' :: '=' :: ' ' :: (inQuotes tag.text ++ ['\n']))) := by
    simp [line]
  rw [hline]
  exact hgap.isBraceless.append (isBraceless_of_isTagRest tag.isTagRest_name tag.isQuotable_text)

end Tag

/-! ## The line that opens a block -/

namespace Resource

variable (r : Resource)

/-- It is the header of a block with two labels. -/
theorem header?_headLine (rest : List Char) :
    header? "resource".toList (r.headLine ++ rest) = some ([r.type, r.name], rest) := by
  have hlabel {label : List Char} (h : IsQuotable label) : '"' ∉ label ∧ '\n' ∉ label :=
    ⟨fun hc => (h _ hc).1 rfl, fun hc => (h _ hc).2.2 rfl⟩
  have hkeyword : IsKeyword "resource".toList := ⟨by decide, by decide⟩
  have hline : r.headLine ++ rest = "resource".toList ++ ' ' :: '"' :: (r.type ++ '"' :: ' ' ::
      '"' :: (r.name ++ '"' :: ' ' :: '{' :: rest)) := by
    unfold headLine inQuotes
    simp only [List.append_assoc, List.cons_append, List.nil_append]
  rw [hline]
  exact header?_labels hkeyword (hlabel r.isQuotable_type) (hlabel r.isQuotable_name) rest

/-- It is no header of another keyword. -/
theorem header?_headLine_of_ne {k : Char} {ks : List Char} (hk : k ≠ 'r') (rest : List Char) :
    header? (k :: ks) (r.headLine ++ rest) = none :=
  header?_eq_none_of_ne (by decide) hk

theorem feed_not_mem_headLine : '\n' ∉ r.headLine := by
  have hword : '\n' ∉ "resource".toList := by decide
  have htype := feed_not_mem_inQuotes r.isQuotable_type
  have hname := feed_not_mem_inQuotes r.isQuotable_name
  unfold headLine
  simp only [List.mem_append, List.mem_cons, hword, htype, hname]
  decide

/-- In front of its brace it is flat. -/
theorem exists_lexemes_headLine : ∃ ls, HasLexemes r.headLine (ls ++ [openBrace]) := by
  have hline : r.headLine = "resource".toList ++ [' '] ++ inQuotes r.type ++ [' '] ++
      inQuotes r.name ++ [' '] ++ ['{'] := by
    unfold headLine
    simp only [List.append_assoc, List.cons_append, List.nil_append]
  obtain ⟨ls, hls, -⟩ : IsFlat ("resource".toList ++ [' '] ++ inQuotes r.type ++ [' '] ++
      inQuotes r.name ++ [' ']) := by
    have hgap : IsFlat [' '] := isFlat_plain (by decide)
    have hword : IsFlat "resource".toList := isFlat_plain (by decide)
    exact ((((hword.append hgap).append (isFlat_inQuotes r.isQuotable_type)).append
      hgap).append (isFlat_inQuotes r.isQuotable_name)).append hgap
  rw [hline]
  exact ⟨ls, hls.append hasLexemes_openBrace⟩

end Resource

end Schematic.Hcl
