import Mathlib.Data.List.Forall2
import Mathlib.Data.List.TakeWhile
import Schematic.Proofs.Hcl.Digits
import Schematic.Proofs.Hcl.Expression
import Schematic.Proofs.Hcl.Outside

/-!
# Blanks at the ends of lines

A blank at the end of a line changes nothing that is read from it. Assignments are read from single
lines and trimmed. Lists may go over several lines, but their items are trimmed too, and an item
that still has a line feed in it has no value, whether there is a blank in front of that or not.

## Main definitions

- `Padded` — a text with a blank put at the end of a line
- `assigned` — the assignments on the lines of a text
- `afterGap?`, `EndsListStart` — reading the start of a list in steps, and what ends it

## Main statements

- `Padded.assigned_eq` — the assignments of a padded text
- `Padded.forall₂_listsFrom`, `Padded.listItems_eq` — its lists and the items of these
-/

namespace Schematic.Hcl

/-- The first text is the second one, perhaps with a blank put at the end of one of its lines. -/
inductive Padded : List Char → List Char → Prop where
  | refl (cs : List Char) : Padded cs cs
  | blank (front : List Char) {rest : List Char} (h : IsLineEnd rest) :
      Padded (front ++ ' ' :: rest) (front ++ rest)

namespace Padded

variable {cs ds : List Char}

theorem append_left (h : Padded cs ds) (front : List Char) :
    Padded (front ++ cs) (front ++ ds) := by
  cases h with
  | refl => exact .refl _
  | blank front' h =>
    rw [← List.append_assoc, ← List.append_assoc]
    exact .blank _ h

theorem cons (h : Padded cs ds) (c : Char) : Padded (c :: cs) (c :: ds) :=
  h.append_left [c]

end Padded

/-! ## Trimming -/

section Trimming

variable {tail : List Char}

theorem trimRight_append_of_blank (h : ∀ c ∈ tail, Text.isBlank c = true) (cs : List Char) :
    Text.trimRight (cs ++ tail) = Text.trimRight cs := by
  rw [Text.trimRight, Text.trimRight, List.reverse_append, List.dropWhile_append_of_pos]
  exact fun c hc => h c (List.mem_reverse.mp hc)

/-- What is behind a text stays there when blanks in front are removed, unless all is blank. -/
theorem trimLeft_append {cs : List Char} (h : Text.trimLeft cs ≠ []) (tail : List Char) :
    Text.trimLeft (cs ++ tail) = Text.trimLeft cs ++ tail := by
  rw [Text.trimLeft] at h ⊢
  rw [List.dropWhile_append, if_neg (by simpa using h)]
  rfl

theorem isBlank_of_trimLeft_eq_nil {cs : List Char} (h : Text.trimLeft cs = []) :
    ∀ c ∈ cs, Text.isBlank c = true :=
  List.dropWhile_eq_nil_iff.mp h

theorem trimLeft_eq_nil_of_blank (h : ∀ c ∈ tail, Text.isBlank c = true) :
    Text.trimLeft tail = [] :=
  List.dropWhile_eq_nil_iff.mpr h

theorem trim_append_of_blank (h : ∀ c ∈ tail, Text.isBlank c = true) (cs : List Char) :
    Text.trim (cs ++ tail) = Text.trim cs := by
  by_cases hcs : Text.trimLeft cs = []
  · have hall : ∀ c ∈ cs ++ tail, Text.isBlank c = true :=
      List.forall_mem_append.mpr ⟨isBlank_of_trimLeft_eq_nil hcs, h⟩
    rw [Text.trim, Text.trim, hcs, trimLeft_eq_nil_of_blank hall]
  · rw [Text.trim, Text.trim, trimLeft_append hcs, trimRight_append_of_blank h]

theorem trim_eq_nil_of_blank (h : ∀ c ∈ tail, Text.isBlank c = true) : Text.trim tail = [] := by
  rw [Text.trim, trimLeft_eq_nil_of_blank h]
  rfl

theorem trim_blank_append {front : List Char} (h : ∀ c ∈ front, Text.isBlank c = true)
    (cs : List Char) : Text.trim (front ++ cs) = Text.trim cs := by
  rw [Text.trim, Text.trim, Text.trimLeft, Text.trimLeft, List.dropWhile_append_of_pos h]

/-- What does not begin with a blank is trimmed at its end. -/
theorem trim_cons {c : Char} (h : Text.isBlank c = false) (cs : List Char) :
    Text.trim (c :: cs) = c :: Text.trimRight cs := by
  have hstop : ∀ d ∈ [c].head?, Text.isBlank d = false := fun d hd => Option.some.inj hd ▸ h
  rw [Text.trim, Text.trimLeft, List.dropWhile_cons_of_neg (by simp [h]), Text.trimRight,
    List.reverse_cons, Text.dropWhile_append_of_stop _ hstop, List.reverse_append]
  rfl

theorem isBlank_blank : ∀ c ∈ [' '], Text.isBlank c = true := by decide

/-- A line feed between characters that are no blanks is not trimmed off. -/
theorem feed_mem_trim {cs more : List Char} (hcs : Text.trimLeft cs ≠ [])
    (hmore : Text.trimLeft more.reverse ≠ []) : '\n' ∈ Text.trim (cs ++ '\n' :: more) := by
  have hreverse : (Text.trimLeft cs ++ '\n' :: more).reverse =
      more.reverse ++ '\n' :: (Text.trimLeft cs).reverse := by simp
  rw [Text.trim, trimLeft_append hcs, Text.trimRight, List.mem_reverse, hreverse]
  show '\n' ∈ Text.trimLeft _
  rw [trimLeft_append hmore]
  simp

end Trimming

/-! ## Assignments -/

/-- An identifier is read from the front, whatever follows that does not go on with it. -/
theorem identifier?_append_of_stop (cs : List Char) {rest : List Char}
    (h : ∀ c ∈ rest.head?, Text.isIdentRest c = false) : identifier? (cs ++ rest) =
      (identifier? cs).map fun (name, left) => (name, left ++ rest) := by
  cases cs with
  | nil =>
    cases rest with
    | nil => rfl
    | cons c rest =>
      have hstart : ¬Text.isIdentStart c = true := by
        intro hstart
        exact absurd (Text.isIdentRest_of_isIdentStart hstart) (by simp [h c rfl])
      rw [List.nil_append, identifier?, if_neg hstart]
      rfl
  | cons c cs =>
    rw [List.cons_append, identifier?, identifier?, Text.takeWhile_append_of_stop cs h,
      Text.dropWhile_append_of_stop cs h]
    split <;> rfl

/-- A blank at the end of a line does not matter to an assignment on it. -/
theorem assignment?_append_blank (line : List Char) :
    assignment? (line ++ [' ']) = assignment? line := by
  have hstop : ∀ c ∈ [' '].head?, Text.isIdentRest c = false := by
    rintro _ ⟨⟩
    rfl
  have hnil {cs : List Char} (h : Text.trimLeft cs = []) : Text.trimLeft (cs ++ [' ']) = [] :=
    trimLeft_eq_nil_of_blank
      (List.forall_mem_append.mpr ⟨isBlank_of_trimLeft_eq_nil h, isBlank_blank⟩)
  rw [assignment?, assignment?]
  by_cases hline : Text.trimLeft line = []
  · rw [hnil hline, hline]
  rw [trimLeft_append hline, identifier?_append_of_stop _ hstop]
  cases identifier? (Text.trimLeft line) with
  | none => rfl
  | some found =>
    obtain ⟨name, rest⟩ := found
    simp only [Option.map_some]
    by_cases hrest : Text.trimLeft rest = []
    · rw [hnil hrest, hrest]
    obtain ⟨c, value, hvalue⟩ := List.exists_cons_of_ne_nil hrest
    rw [trimLeft_append hrest, hvalue, List.cons_append]
    by_cases hequals : c = '='
    · subst hequals
      simp only [trim_append_of_blank isBlank_blank]
    · simp [hequals]

/-- The assignments on the lines of a text. -/
def assigned (cs : List Char) : List (List Char × List Char) :=
  (Text.lines cs).filterMap assignment?

theorem lines_singleton {c : Char} (hc : Text.isLineBreak c = false) :
    Text.lines [c] = [[c]] := by
  rw [Text.lines, if_neg (by simp [hc])]
  · rfl
  · rintro _ -
    exact fun h => by cases h

/-- A character that ends no line goes to the front of the first line. -/
theorem lines_cons {c : Char} (hc : Text.isLineBreak c = false) {cs line : List Char}
    {more : List (List Char)} (h : Text.lines cs = line :: more) :
    Text.lines (c :: cs) = (c :: line) :: more := by
  rw [Text.lines, if_neg (by simp [hc]), h]
  rintro _ rfl
  exact absurd hc (by decide)

theorem assigned_line {line : List Char} (h : ∀ c ∈ line, Text.isLineBreak c = false) :
    assigned line = (assignment? line).toList := by
  have hlines : line ≠ [] → Text.lines line = [line] := by
    induction line with
    | nil => exact fun hne => absurd rfl hne
    | cons c line ih =>
      obtain ⟨hc, hline⟩ := List.forall_mem_cons.mp h
      intro _
      cases line with
      | nil => exact lines_singleton hc
      | cons d line => exact lines_cons hc (ih hline (List.cons_ne_nil d line))
  by_cases hne : line = []
  · rw [hne]
    rfl
  · rw [assigned, hlines hne, List.filterMap_cons, List.filterMap_nil]
    split <;> simp [*]

/-- What ends a line is not read; a carriage return leaves an empty line in front of a feed. -/
theorem assigned_break {c : Char} (hc : Text.isLineBreak c = true) (rest : List Char) :
    ∃ more, Text.lines (c :: rest) = [] :: more ∧ more.filterMap assignment? = assigned rest := by
  by_cases hpair : c = '\r' ∧ ∃ tail, rest = '\n' :: tail
  · obtain ⟨rfl, tail, rfl⟩ := hpair
    refine ⟨Text.lines tail, by rw [Text.lines], ?_⟩
    rw [assigned, Text.lines_feed]
    rfl
  · refine ⟨Text.lines rest, ?_, rfl⟩
    rw [Text.lines, if_pos hc]
    rintro tail rfl rfl
    exact hpair ⟨rfl, tail, rfl⟩

/-- A line is read on its own, whatever ends it. -/
theorem assigned_append {line : List Char} (h : ∀ c ∈ line, Text.isLineBreak c = false) {c : Char}
    (hc : Text.isLineBreak c = true) (rest : List Char) :
    assigned (line ++ c :: rest) = (assignment? line).toList ++ assigned rest := by
  obtain ⟨more, hmore, hassigned⟩ := assigned_break hc rest
  have hlines : Text.lines (line ++ c :: rest) = line :: more := by
    induction line with
    | nil => exact hmore
    | cons d line ih =>
      obtain ⟨hd, hline⟩ := List.forall_mem_cons.mp h
      exact lines_cons hd (ih hline)
  rw [assigned, hlines, ← hassigned, List.filterMap_cons]
  split <;> simp [*]

/-- The assignments of a text with a blank at the end of a line, read from the line `line` on. -/
theorem assigned_blank {rest : List Char} (hrest : IsLineEnd rest) (front : List Char)
    {line : List Char} (h : ∀ c ∈ line, Text.isLineBreak c = false) :
    assigned (line ++ (front ++ ' ' :: rest)) = assigned (line ++ (front ++ rest)) := by
  induction front generalizing line with
  | nil =>
    have hlonger : ∀ c ∈ line ++ [' '], Text.isLineBreak c = false := by
      rw [List.forall_mem_append]
      exact ⟨h, by decide⟩
    have hsplit : line ++ ([] ++ ' ' :: rest) = line ++ [' '] ++ rest := by simp
    rw [hsplit, List.nil_append]
    rcases hrest with rfl | ⟨more, rfl⟩
    · rw [List.append_nil, List.append_nil, assigned_line hlonger, assigned_line h,
        assignment?_append_blank]
    · rw [assigned_append hlonger (by decide), assigned_append h (by decide),
        assignment?_append_blank]
  | cons c front ih =>
    cases hc : Text.isLineBreak c with
    | true =>
      rw [List.cons_append, List.cons_append, assigned_append h hc, assigned_append h hc]
      exact congrArg ((assignment? line).toList ++ ·) (@ih [] (by simp))
    | false =>
      have hlonger : ∀ d ∈ line ++ [c], Text.isLineBreak d = false := by
        rw [List.forall_mem_append]
        exact ⟨h, by simp [hc]⟩
      simpa using ih hlonger

theorem Padded.assigned_eq {cs ds : List Char} (h : Padded cs ds) : assigned cs = assigned ds := by
  cases h with
  | refl => rfl
  | blank front hrest => exact @assigned_blank _ hrest front [] (by simp)

/-! ## Starts of lists -/

/-- What follows a character behind blanks and tabs, if it is the one that stands there. -/
def afterGap? (c : Char) (cs : List Char) : Option (List Char) :=
  match cs.dropWhile isGap with
  | d :: rest => if d = c then some rest else none
  | [] => none

theorem afterGap?_append {c : Char} {rest : List Char} (h : afterGap? c rest = none)
    (cs : List Char) : afterGap? c (cs ++ rest) = (afterGap? c cs).map (· ++ rest) := by
  induction cs with
  | nil => exact h
  | cons d cs ih =>
    cases hd : isGap d with
    | true =>
      rw [afterGap?, afterGap?, List.cons_append, List.dropWhile_cons_of_pos hd,
        List.dropWhile_cons_of_pos hd]
      exact ih
    | false =>
      have hneg : ¬isGap d = true := by simp [hd]
      rw [afterGap?, afterGap?, List.cons_append, List.dropWhile_cons_of_neg hneg,
        List.dropWhile_cons_of_neg hneg]
      simp only
      split <;> rfl

theorem afterGap?_eq_some {c : Char} {cs rest : List Char} (h : cs.dropWhile isGap = c :: rest) :
    afterGap? c cs = some rest := by
  rw [afterGap?, h]
  exact if_pos rfl

theorem afterGap?_eq_none {c : Char} {cs : List Char}
    (h : ∀ rest, cs.dropWhile isGap ≠ c :: rest) : afterGap? c cs = none := by
  rw [afterGap?]
  split
  · next d rest heq =>
    apply if_neg
    rintro rfl
    exact h rest heq
  · rfl

/-- The start of a list is read in steps. -/
theorem listStart?_eq (cs : List Char) : listStart? cs =
    (identifier? (cs.dropWhile isGap)).bind fun found =>
      (afterGap? '=' found.2).bind fun left =>
        (afterGap? '[' left).map fun inside => (found.1, inside) := by
  rw [listStart?]
  cases identifier? (cs.dropWhile isGap) with
  | none => rfl
  | some found =>
    obtain ⟨key, left⟩ := found
    simp only [Option.bind_some]
    split
    · next rest hequals =>
      rw [afterGap?_eq_some hequals, Option.bind_some]
      split
      · next inside hbracket =>
        rw [afterGap?_eq_some hbracket]
        rfl
      · next hnone =>
        rw [afterGap?_eq_none fun inside => hnone inside]
        rfl
    · next hnone =>
      rw [afterGap?_eq_none fun rest => hnone rest]
      rfl

/-- An identifier behind blanks and tabs. -/
theorem identifier?_dropWhile_append {rest : List Char}
    (hstop : ∀ c ∈ rest.head?, Text.isIdentRest c = false)
    (hnone : identifier? (rest.dropWhile isGap) = none) (cs : List Char) :
    identifier? ((cs ++ rest).dropWhile isGap) =
      (identifier? (cs.dropWhile isGap)).map fun found => (found.1, found.2 ++ rest) := by
  induction cs with
  | nil => exact hnone
  | cons c cs ih =>
    cases hc : isGap c with
    | true =>
      rw [List.cons_append, List.dropWhile_cons_of_pos hc, List.dropWhile_cons_of_pos hc, ih]
    | false =>
      have hneg : ¬isGap c = true := by simp [hc]
      rw [List.cons_append, List.dropWhile_cons_of_neg hneg, List.dropWhile_cons_of_neg hneg]
      exact identifier?_append_of_stop (c :: cs) hstop

/-- Text behind which no list that has not begun yet can begin. -/
structure EndsListStart (rest : List Char) : Prop where
  stop : ∀ c ∈ rest.head?, Text.isIdentRest c = false
  identifier : identifier? (rest.dropWhile isGap) = none
  equals : afterGap? '=' rest = none
  bracket : afterGap? '[' rest = none

/-- The start of a list is read from the front, whatever follows it. -/
theorem EndsListStart.listStart?_append {rest : List Char} (h : EndsListStart rest)
    (cs : List Char) : listStart? (cs ++ rest) =
      (listStart? cs).map fun found => (found.1, found.2 ++ rest) := by
  rw [listStart?_eq, listStart?_eq, identifier?_dropWhile_append h.stop h.identifier]
  cases identifier? (cs.dropWhile isGap) with
  | none => rfl
  | some found =>
    simp only [Option.map_some, Option.bind_some, afterGap?_append h.equals]
    cases afterGap? '=' found.2 with
    | none => rfl
    | some left =>
      simp only [Option.map_some, Option.bind_some, afterGap?_append h.bracket]
      cases afterGap? '[' left <;> rfl

theorem IsLineEnd.endsListStart {rest : List Char} (h : IsLineEnd rest) : EndsListStart rest := by
  rcases h with rfl | ⟨more, rfl⟩
  · exact ⟨fun c hc => (by cases hc), rfl, rfl, rfl⟩
  · exact ⟨fun c hc => Option.some.inj hc ▸ by decide, rfl, rfl, rfl⟩

theorem IsLineEnd.endsListStart_blank {rest : List Char} (h : IsLineEnd rest) :
    EndsListStart (' ' :: rest) := by
  have hstop : ∀ c ∈ (' ' :: rest).head?, Text.isIdentRest c = false :=
    fun c hc => Option.some.inj hc ▸ by decide
  rcases h with rfl | ⟨more, rfl⟩
  · exact ⟨hstop, rfl, rfl, rfl⟩
  · exact ⟨hstop, rfl, rfl, rfl⟩

/-! ## Lists -/

theorem suffix_of_afterGap? {c : Char} {cs rest : List Char} (h : afterGap? c cs = some rest) :
    c :: rest <:+ cs := by
  rw [afterGap?] at h
  split at h
  · next d left heq =>
    split at h
    · next hd =>
      obtain rfl := Option.some.inj h
      rw [← hd, ← heq]
      exact List.dropWhile_suffix _
    · cases h
  · cases h

/-- What is inside of a list stands behind its bracket. -/
theorem suffix_of_listStart? {cs key inside : List Char}
    (h : listStart? cs = some (key, inside)) : '[' :: inside <:+ cs := by
  rw [listStart?_eq] at h
  obtain ⟨⟨name, rest⟩, hname, h⟩ := Option.bind_eq_some_iff.mp h
  obtain ⟨left, hequals, h⟩ := Option.bind_eq_some_iff.mp h
  obtain ⟨inside', hbracket, heq⟩ := Option.map_eq_some_iff.mp h
  obtain ⟨-, rfl⟩ := Prod.mk.inj heq
  have hrest := (suffix_of_identifier? hname).trans (List.dropWhile_suffix _)
  have hleft := (List.suffix_cons '=' left).trans (suffix_of_afterGap? hequals)
  exact (suffix_of_afterGap? hbracket).trans (hleft.trans hrest)

/-- Behind characters that belong to a list. -/
theorem listsFrom_skip_append (atLineStart : Bool) (front : List Char) (c : Char)
    (rest : List Char) : listsFrom atLineStart (front.length + 1) (front ++ c :: rest) =
      listsFrom (c == '\n') 0 rest := by
  induction front generalizing atLineStart with
  | nil => rw [List.nil_append, List.length_nil, listsFrom]
  | cons d front ih => rw [List.cons_append, List.length_cons, listsFrom, ih]

variable {c : Char} {rest key inside content left : List Char}

theorem listsFrom_of_none {atLineStart : Bool}
    (h : atLineStart = true → listStart? (c :: rest) = none) :
    listsFrom atLineStart 0 (c :: rest) = listsFrom (c == '\n') 0 rest := by
  have hnone : (if atLineStart then listStart? (c :: rest) else none) = none := by
    split
    · next hstart => exact h hstart
    · rfl
  rw [listsFrom, hnone]

theorem listsFrom_of_open (hstart : listStart? (c :: rest) = some (key, inside))
    (hcut : Text.cutAtChar? ']' inside = none) : listsFrom true 0 (c :: rest) = [] := by
  rw [listsFrom, if_pos rfl, hstart]
  simp only [hcut]

/-- Behind the bracket that closes a list the search goes on. -/
theorem listsFrom_of_closed (hstart : listStart? (c :: rest) = some (key, inside))
    (hcut : Text.cutAtChar? ']' inside = some (content, left)) :
    listsFrom true 0 (c :: rest) = (key, content) :: listsFrom false 0 left := by
  obtain ⟨hinside, -⟩ := Text.append_of_cutAtChar? hcut
  obtain ⟨front, hfront⟩ : inside <:+ rest := by
    rcases List.suffix_cons_iff.mp (suffix_of_listStart? hstart) with heq | hsuffix
    · exact (List.cons.inj heq).2 ▸ List.suffix_refl _
    · exact (List.suffix_cons '[' inside).trans hsuffix
  have hrest : rest = (front ++ content) ++ ']' :: left := by
    rw [← hfront, hinside, List.append_assoc]
  have hlength : rest.length - left.length = (front ++ content).length + 1 := by
    rw [hrest, List.length_append, List.length_cons]
    omega
  rw [listsFrom, if_pos rfl, hstart]
  simp only [hcut, hlength]
  rw [hrest, listsFrom_skip_append]
  rfl

/-- No list begins at the end of a line. -/
theorem IsLineEnd.listsFrom_eq {rest : List Char} (h : IsLineEnd rest) (atLineStart : Bool) :
    listsFrom atLineStart 0 rest = listsFrom false 0 rest := by
  rcases h with rfl | ⟨more, rfl⟩
  · rfl
  · rw [listsFrom_of_none fun _ => rfl, listsFrom_of_none fun h => by cases h]

/-- A list is read under the same key, with a blank more or not. -/
def ListPadded (padded plain : List Char × List Char) : Prop :=
  padded.1 = plain.1 ∧ Padded padded.2 plain.2

theorem forall₂_listPadded_refl (lists : List (List Char × List Char)) :
    List.Forall₂ ListPadded lists lists :=
  List.forall₂_same.mpr fun _ _ => ⟨rfl, .refl _⟩

/-- What is cut off behind the end of a line, with a blank in front of that or without. -/
theorem IsLineEnd.cutAtChar?_blank {rest : List Char} (h : IsLineEnd rest) {inside : List Char}
    (hinside : ']' ∉ inside) :
    (Text.cutAtChar? ']' (inside ++ ' ' :: rest) = none ∧
      Text.cutAtChar? ']' (inside ++ rest) = none) ∨
    ∃ more left, IsLineEnd more ∧
      Text.cutAtChar? ']' (inside ++ ' ' :: rest) = some (inside ++ ' ' :: more, left) ∧
      Text.cutAtChar? ']' (inside ++ rest) = some (inside ++ more, left) := by
  have hblank : Text.cutAtChar? ']' ([' '] ++ rest) =
      (Text.cutAtChar? ']' rest).map fun cut => ([' '] ++ cut.1, cut.2) :=
    Text.cutAtChar?_append_of_not_mem (by decide) rest
  rw [List.singleton_append] at hblank
  rw [Text.cutAtChar?_append_of_not_mem hinside, Text.cutAtChar?_append_of_not_mem hinside, hblank]
  cases hcut : Text.cutAtChar? ']' rest with
  | none => exact .inl ⟨rfl, rfl⟩
  | some cut =>
    obtain ⟨more, left⟩ := cut
    refine .inr ⟨more, left, ?_, rfl, rfl⟩
    -- The line feed is no bracket, so the cut is behind it.
    rcases h with rfl | ⟨line, rfl⟩
    · cases hcut
    · obtain ⟨hline, -⟩ := Text.append_of_cutAtChar? hcut
      cases more with
      | nil => exact .inl rfl
      | cons d more => exact .inr ⟨more, by rw [(List.cons.inj hline).1]⟩

/-- A list that begins in front of the end of the line, where the lists behind it are known. -/
theorem forall₂_listsFrom_of_start {rest : List Char} (hrest : IsLineEnd rest) {c : Char}
    {front key inside : List Char} (hstart : listStart? (c :: front) = some (key, inside))
    (hleft : ∀ left : List Char, left.length < (c :: front).length → List.Forall₂ ListPadded
      (listsFrom false 0 (left ++ ' ' :: rest)) (listsFrom false 0 (left ++ rest))) :
    List.Forall₂ ListPadded (listsFrom true 0 (c :: front ++ ' ' :: rest))
      (listsFrom true 0 (c :: front ++ rest)) := by
  have hlong := hrest.endsListStart_blank.listStart?_append (c :: front)
  have hshort := hrest.endsListStart.listStart?_append (c :: front)
  rw [hstart, Option.map_some, List.cons_append] at hlong hshort
  rw [List.cons_append, List.cons_append]
  cases hcut : Text.cutAtChar? ']' inside with
  | some cut =>
    -- The list closes in front of the end of the line, and the search goes on behind it.
    obtain ⟨content, left⟩ := cut
    obtain ⟨rfl, hcontent⟩ := Text.append_of_cutAtChar? hcut
    have hlt : left.length < (c :: front).length := by
      have hsuffix := (suffix_of_listStart? hstart).length_le
      simp only [List.length_cons, List.length_append] at hsuffix ⊢
      omega
    have hclosed (back : List Char) :
        Text.cutAtChar? ']' (content ++ ']' :: left ++ back) = some (content, left ++ back) := by
      rw [List.append_assoc, List.cons_append, Text.cutAtChar?_append hcontent]
    rw [listsFrom_of_closed hlong (hclosed _), listsFrom_of_closed hshort (hclosed _)]
    exact .cons ⟨rfl, .refl _⟩ (hleft left hlt)
  | none =>
    -- The list goes over the end of the line, so it has the blank in it.
    have hinside := Text.not_mem_of_cutAtChar?_eq_none hcut
    rcases hrest.cutAtChar?_blank hinside with ⟨hno, hno'⟩ | ⟨more, left, hmore, hyes, hyes'⟩
    · rw [listsFrom_of_open hlong hno, listsFrom_of_open hshort hno']
      exact .nil
    · rw [listsFrom_of_closed hlong hyes, listsFrom_of_closed hshort hyes']
      exact .cons ⟨rfl, .blank inside hmore⟩ (forall₂_listPadded_refl _)

theorem forall₂_listsFrom_blank {rest : List Char} (hrest : IsLineEnd rest) (front : List Char)
    (atLineStart : Bool) :
    List.Forall₂ ListPadded (listsFrom atLineStart 0 (front ++ ' ' :: rest))
      (listsFrom atLineStart 0 (front ++ rest)) := by
  -- A list takes many characters at once, so the induction is on the length.
  induction hn : front.length using Nat.strongRecOn generalizing front atLineStart with
  | ind n ih =>
    subst hn
    cases front with
    | nil =>
      have hnone : listStart? (' ' :: rest) = none :=
        hrest.endsListStart_blank.listStart?_append []
      rw [List.nil_append, List.nil_append, listsFrom_of_none fun _ => hnone,
        hrest.listsFrom_eq atLineStart]
      exact forall₂_listPadded_refl _
    | cons c front =>
      by_cases hnone : atLineStart = true → listStart? (c :: front) = none
      · have hlong := hrest.endsListStart_blank.listStart?_append (c :: front)
        have hshort := hrest.endsListStart.listStart?_append (c :: front)
        rw [List.cons_append, List.cons_append, listsFrom_of_none, listsFrom_of_none]
        · exact ih front.length (Nat.lt_succ_self _) front (c == '\n') rfl
        · exact fun h => by rw [← List.cons_append, hshort, hnone h]; rfl
        · exact fun h => by rw [← List.cons_append, hlong, hnone h]; rfl
      · obtain ⟨rfl, hsome⟩ := Classical.not_imp.mp hnone
        obtain ⟨found, hstart⟩ := Option.ne_none_iff_exists'.mp hsome
        apply forall₂_listsFrom_of_start hrest hstart
        exact fun left hlt => ih left.length hlt left false rfl

/-- The lists of a text with a blank at the end of a line. -/
theorem Padded.forall₂_listsFrom {cs ds : List Char} (h : Padded cs ds) :
    List.Forall₂ ListPadded (listsFrom true 0 cs) (listsFrom true 0 ds) := by
  cases h with
  | refl => exact forall₂_listPadded_refl _
  | blank front hrest => exact forall₂_listsFrom_blank hrest front true

/-! ## Items -/

theorem unquoteRest_of_feed {cs : List Char} (h : '\n' ∈ cs) : unquoteRest cs = none := by
  fun_induction unquoteRest cs with
  | case1 => simp at h
  | case2 => rfl
  | case3 => rfl
  | case4 c rest hc ih =>
    have hrest : '\n' ∈ rest := by simpa [Ne.symm hc] using h
    rw [ih hrest, Option.map_none]
  | case5 => rfl
  | case6 c rest _ _ _ hc ih =>
    have hfeed : c ≠ '\n' := by simp_all
    have hrest : '\n' ∈ rest := (List.mem_cons.mp h).resolve_left (Ne.symm hfeed)
    rw [ih hrest, Option.map_none]
  | case7 => cases h

theorem isNumber_of_feed {cs : List Char} (h : '\n' ∈ cs) : isNumber cs = false := by
  have hplain {digits : List Char} (hdigits : ∀ c ∈ digits, Text.isDecimalDigit c = true) :
      '\n' ∉ digits := Text.not_mem_of_class hdigits (by decide)
  rw [← Bool.not_eq_true]
  intro hnumber
  obtain ⟨digits, hunsigned, hcs⟩ := isUnsigned_of_isNumber hnumber
  have hdigits : '\n' ∉ digits := by
    cases hunsigned with
    | whole _ hdigits => exact hplain hdigits
    | decimal _ hdigits _ hfraction => simp [hplain hdigits, hplain hfraction]
  rcases hcs with rfl | rfl
  · exact hdigits h
  · exact hdigits ((List.mem_cons.mp h).resolve_left (by decide))

theorem isReference_of_feed {cs : List Char} (h : '\n' ∈ cs) : isReference cs = false := by
  cases cs with
  | nil => rfl
  | cons c rest =>
    rw [isReference, Bool.and_eq_false_iff]
    rcases List.mem_cons.mp h with rfl | h
    · exact .inl (by decide)
    · exact .inr (List.all_eq_false.mpr ⟨'\n', h, by decide⟩)

/-- An item with a line feed in it has no value. -/
theorem listItem_of_feed (addresses : Bool) {raw : List Char} (h : '\n' ∈ raw) :
    listItem addresses raw = .ok none := by
  have hreference := isReference_of_feed h
  have hempty : raw.isEmpty = false := List.isEmpty_eq_false_iff.mpr (List.ne_nil_of_mem h)
  have hquote : unquote? raw = none := by
    unfold unquote?
    split
    · exact unquoteRest_of_feed ((List.mem_cons.mp h).resolve_left (by decide))
    · rfl
  have htrue : raw ≠ "true".toList := fun heq => absurd (heq ▸ h) (by decide)
  have hfalse : raw ≠ "false".toList := fun heq => absurd (heq ▸ h) (by decide)
  rw [listItem, hempty, hreference, Bool.and_false, scalar, hquote]
  simp only [if_neg htrue, if_neg hfalse, isNumber_of_feed h, hreference]
  rfl

/-- A blank in front of a line feed does not matter to an item. -/
theorem Padded.listItem_eq {cs ds : List Char} (h : Padded cs ds) (addresses : Bool) :
    listItem addresses (Text.trim cs) = listItem addresses (Text.trim ds) := by
  cases h with
  | refl => rfl
  | blank front hrest =>
    rcases hrest with rfl | ⟨more, rfl⟩
    · rw [List.append_nil, trim_append_of_blank isBlank_blank]
    -- With nothing but blanks on one of its sides the line feed is trimmed off.
    by_cases hfront : Text.trimLeft front = []
    · have hblanks := isBlank_of_trimLeft_eq_nil hfront
      have hleft (tail : List Char) : Text.trim (front ++ tail) = Text.trim tail := by
        rw [Text.trim, Text.trim, Text.trimLeft, List.dropWhile_append_of_pos hblanks]
        rfl
      rw [hleft, hleft]
      rfl
    by_cases hmore : Text.trimLeft more.reverse = []
    · have hfeed : ∀ c ∈ '\n' :: more, Text.isBlank c = true := by
        rw [List.forall_mem_cons]
        exact ⟨by decide, fun c hc =>
          isBlank_of_trimLeft_eq_nil hmore c (List.mem_reverse.mpr hc)⟩
      have hboth : ∀ c ∈ ' ' :: '\n' :: more, Text.isBlank c = true :=
        List.forall_mem_cons.mpr ⟨by decide, hfeed⟩
      rw [trim_append_of_blank hboth, trim_append_of_blank hfeed]
    -- Otherwise it is left in both, and the item has no value.
    have hpadded : front ++ ' ' :: '\n' :: more = front ++ [' '] ++ '\n' :: more := by simp
    have hlonger : Text.trimLeft (front ++ [' ']) ≠ [] := by
      rw [trimLeft_append hfront]
      simp
    rw [hpadded, listItem_of_feed addresses (feed_mem_trim hlonger hmore),
      listItem_of_feed addresses (feed_mem_trim hfront hmore)]

/-- A character other than the separator goes to the front of the first piece. -/
theorem splitAtChar_cons {c sep : Char} (hc : c ≠ sep) {cs piece : List Char}
    {more : List (List Char)} (h : Text.splitAtChar sep cs = piece :: more) :
    Text.splitAtChar sep (c :: cs) = (c :: piece) :: more := by
  rw [Text.splitAtChar, if_neg hc, h]

/-- The pieces of a text with a blank at the end of a line. -/
theorem Padded.forall₂_splitAtChar {cs ds : List Char} (h : Padded cs ds) :
    List.Forall₂ Padded (Text.splitAtChar ',' cs) (Text.splitAtChar ',' ds) := by
  have hrefl (pieces : List (List Char)) : List.Forall₂ Padded pieces pieces :=
    List.forall₂_same.mpr fun _ _ => .refl _
  cases h with
  | refl => exact hrefl _
  | @blank front rest hrest =>
    induction front with
    | nil =>
      obtain ⟨piece, more, hpieces⟩ :=
        List.exists_cons_of_ne_nil (Text.splitAtChar_ne_nil ',' rest)
      have hpiece : IsLineEnd piece := by
        rcases hrest with rfl | ⟨line, rfl⟩
        · exact .inl (List.cons.inj hpieces).1.symm
        · obtain ⟨first, others, hline⟩ :=
            List.exists_cons_of_ne_nil (Text.splitAtChar_ne_nil ',' line)
          rw [splitAtChar_cons (by decide) hline] at hpieces
          exact .inr ⟨first, (List.cons.inj hpieces).1.symm⟩
      rw [List.nil_append, List.nil_append, splitAtChar_cons (by decide) hpieces, hpieces]
      exact .cons (.blank [] hpiece) (hrefl more)
    | cons c front ih =>
      obtain ⟨long, mores, hlong⟩ :=
        List.exists_cons_of_ne_nil (Text.splitAtChar_ne_nil ',' (front ++ ' ' :: rest))
      obtain ⟨short, others, hshort⟩ :=
        List.exists_cons_of_ne_nil (Text.splitAtChar_ne_nil ',' (front ++ rest))
      rw [List.cons_append, List.cons_append]
      by_cases hc : c = ','
      · subst hc
        rw [Text.splitAtChar, Text.splitAtChar, if_pos rfl, if_pos rfl]
        exact .cons (.refl []) ih
      · rw [splitAtChar_cons hc hlong, splitAtChar_cons hc hshort]
        rw [hlong, hshort, List.forall₂_cons] at ih
        exact .cons (ih.1.cons c) ih.2

theorem mapM_eq_mapM {ε α β γ : Type} {R : α → β → Prop} {f : α → Except ε γ}
    {g : β → Except ε γ} {xs : List α} {ys : List β} (h : List.Forall₂ R xs ys)
    (hstep : ∀ x y, R x y → f x = g y) : xs.mapM f = ys.mapM g := by
  induction h with
  | nil => rfl
  | cons hxy _ ih => rw [List.mapM_cons, List.mapM_cons, hstep _ _ hxy, ih]

/-- The items of a list with a blank at the end of a line. -/
theorem Padded.listItems_eq {cs ds : List Char} (h : Padded cs ds) (addresses : Bool) :
    listItems addresses cs = listItems addresses ds := by
  rw [listItems, listItems,
    mapM_eq_mapM h.forall₂_splitAtChar fun _ _ hpiece => hpiece.listItem_eq addresses]

end Schematic.Hcl
