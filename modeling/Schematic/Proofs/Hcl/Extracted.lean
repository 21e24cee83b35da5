import Schematic.Proofs.Hcl.Opening

/-!
# The blocks of a text

The blocks of a keyword are found greedily: the headers are gone through in their order, and one
is taken if its brace is closed and stands behind the block before. What is taken is told here
without going through the headers. As only headers whose brace counts are taken, their lines start
outside of strings and comments, and no block reaches into the header of the next one.

## Main definitions

- `taken` — the headers that are taken, with the places where their blocks are closed
- `IsOutside` — a place outside of strings and comments
- `IsOpened` — the lexemes around the heading of a header whose brace counts
- `IsExtraction` — what is said about the headers that are taken

## Main statements

- `mem_taken_iff` — which headers are taken
- `IsOpened.lt_offset_of_closingOf?` — no block is closed within a header whose brace counts
- `exists_isExtraction_blocks` — the blocks are those of the headers that are taken
-/

namespace Schematic.Hcl

open Lexeme

/-! ## Taking headers -/

/-- The headers that are taken behind `covered`, with the places where their blocks are closed. -/
def taken (pairs : List (Nat × Nat)) (covered : Nat) : List Header → List (Header × Nat)
  | [] => []
  | header :: rest =>
    if header.brace < covered then taken pairs covered rest
    else
      match closingOf? pairs header.brace with
      | none => taken pairs covered rest
      | some close => (header, close) :: taken pairs close rest

/-- The block of a header that is closed at a place. -/
def blockOf (keyword : String) (cs : List Char) (found : Header × Nat) : Block where
  keyword := keyword
  labels := found.1.labels
  body := (cs.drop (found.1.brace + 1)).take (found.2 - (found.1.brace + 1))
  offset := found.1.offset

theorem closedBlocks_eq_map (keyword : String) (cs : List Char) (pairs : List (Nat × Nat))
    (covered : Nat) (headers : List Header) : closedBlocks keyword cs pairs covered headers =
      (taken pairs covered headers).map (blockOf keyword cs) := by
  induction headers generalizing covered with
  | nil => rfl
  | cons header headers ih =>
    rw [closedBlocks, taken]
    split
    · exact ih covered
    · cases closingOf? pairs header.brace with
      | none => exact ih covered
      | some close => exact congrArg (_ :: ·) (ih close)

section Taken

variable {pairs : List (Nat × Nat)} {headers : List Header}

/-- A header is left out, or it is taken with the place where its block is closed. -/
theorem taken_cons (pairs : List (Nat × Nat)) (covered : Nat) (header : Header)
    (rest : List Header) :
    (taken pairs covered (header :: rest) = taken pairs covered rest ∧
      ∀ close, closingOf? pairs header.brace = some close → ¬covered ≤ header.brace) ∨
    ∃ close, closingOf? pairs header.brace = some close ∧ covered ≤ header.brace ∧
      taken pairs covered (header :: rest) = (header, close) :: taken pairs close rest := by
  rw [taken]
  split
  · next hcovered => exact .inl ⟨rfl, fun _ _ => Nat.not_le_of_lt hcovered⟩
  · next hcovered =>
    cases hclose : closingOf? pairs header.brace with
    | none => exact .inl ⟨rfl, fun _ h => nomatch h⟩
    | some close => exact .inr ⟨close, rfl, Nat.le_of_not_lt hcovered, rfl⟩

theorem map_fst_taken_sublist (pairs : List (Nat × Nat)) (covered : Nat)
    (headers : List Header) : ((taken pairs covered headers).map Prod.fst).Sublist headers := by
  induction headers generalizing covered with
  | nil => exact .slnil
  | cons header headers ih =>
    rcases taken_cons pairs covered header headers with ⟨heq, -⟩ | ⟨close, -, -, heq⟩
    · rw [heq]
      exact (ih covered).cons header
    · rw [heq]
      exact (ih close).cons_cons header

/-- A header is taken if it is closed and stands behind the blocks of those taken before. -/
theorem mem_taken_iff (hsorted : headers.Pairwise fun p q => p.offset < q.offset)
    (hclosed : ∀ start stop, closingOf? pairs start = some stop → start < stop) {covered : Nat}
    {header : Header} {close : Nat} : (header, close) ∈ taken pairs covered headers ↔
      header ∈ headers ∧ closingOf? pairs header.brace = some close ∧ covered ≤ header.brace ∧
        ∀ p ∈ taken pairs covered headers, p.1.offset < header.offset → p.2 ≤ header.brace := by
  induction headers generalizing covered with
  | nil => simp [taken]
  | cons first headers ih =>
    obtain ⟨hfirst, hsorted⟩ := List.pairwise_cons.mp hsorted
    rw [List.mem_cons]
    rcases taken_cons pairs covered first headers with ⟨heq, hleft⟩ | ⟨stop, hstop, hcovered, heq⟩
    -- A header that is left out is none of those that are to be taken.
    · rw [heq, ih hsorted]
      constructor
      · rintro ⟨hmem, hrest⟩
        exact ⟨.inr hmem, hrest⟩
      · rintro ⟨rfl | hmem, hclose, hbrace, hbefore⟩
        · exact absurd hbrace (hleft close hclose)
        · exact ⟨hmem, hclose, hbrace, hbefore⟩
    -- A header that is taken comes first, and the others are taken behind its block.
    · have hlater {p : Header × Nat} (hp : p ∈ taken pairs stop headers) :
          first.offset < p.1.offset :=
        hfirst p.1 ((map_fst_taken_sublist pairs stop headers).subset (List.mem_map_of_mem hp))
      have hlt := hclosed first.brace stop hstop
      rw [heq, List.mem_cons, List.forall_mem_cons]
      constructor
      · rintro (hpair | hmem)
        · obtain ⟨rfl, rfl⟩ := Prod.mk.inj hpair
          refine ⟨.inl rfl, hstop, hcovered, fun h => absurd h (Nat.lt_irrefl _), ?_⟩
          intro p hp hbefore
          exact absurd hbefore (Nat.lt_asymm (hlater hp))
        · obtain ⟨hheader, hclose, hbrace, hbefore⟩ := (ih hsorted).mp hmem
          exact ⟨.inr hheader, hclose, by omega, fun _ => hbrace, hbefore⟩
      · rintro ⟨rfl | hheader, hclose, hbrace, hbefore, hrest⟩
        · exact .inl (by rw [Option.some.inj (hclose.symm.trans hstop)])
        · exact .inr ((ih hsorted).mpr ⟨hheader, hclose, hbefore (hfirst header hheader), hrest⟩)

end Taken

/-! ## Places of lexemes -/

/-- A lexeme that begins within a part of the lexemes is one of that part. -/
theorem exists_append_of_width {front back fs ms after : List Lexeme} {l : Lexeme}
    (hl : l.text ≠ []) (h : front ++ l :: back = fs ++ (ms ++ after))
    (hfrom : width fs ≤ width front) (hto : width front < width fs + width ms) :
    ∃ more rest, front = fs ++ more ∧ ms = more ++ l :: rest := by
  have hpos := List.length_pos_iff.mpr hl
  rcases List.append_eq_append_iff.mp h with ⟨more, rfl, hback⟩ | ⟨more, rfl, hafter⟩
  · cases more with
    | nil =>
      cases ms with
      | nil => simp at hto
      | cons m ms =>
        obtain ⟨rfl, -⟩ := List.cons.inj hback
        exact ⟨[], ms, by simp, rfl⟩
    | cons m more =>
      obtain ⟨rfl, -⟩ := List.cons.inj hback
      rw [width_append, width_cons] at hfrom
      omega
  · rcases List.append_eq_append_iff.mp hafter with ⟨inner, rfl, -⟩ | ⟨inner, rfl, hback⟩
    · simp only [width_append] at hto
      omega
    · cases inner with
      | nil => simp at hto
      | cons m inner =>
        obtain ⟨rfl, -⟩ := List.cons.inj hback
        exact ⟨more, inner, rfl, rfl⟩

/-- A lexeme that begins in front of a place between lexemes ends there at the latest. -/
theorem width_add_le {front back fs more : List Lexeme} {l : Lexeme}
    (h : front ++ l :: back = fs ++ more) (hlt : width front < width fs) :
    width front + l.text.length ≤ width fs := by
  rcases List.append_eq_append_iff.mp h with ⟨inner, rfl, hback⟩ | ⟨inner, rfl, -⟩
  · cases inner with
    | nil => simp at hlt
    | cons m inner =>
      obtain ⟨rfl, -⟩ := List.cons.inj hback
      rw [width_append, width_cons]
      omega
  · rw [width_append] at hlt
    omega

/-- A place outside of strings and comments. -/
def IsOutside (cs : List Char) (place : Nat) : Prop :=
  ∀ front l back, ofText cs = front ++ l :: back →
    (∃ chars, l = .literal chars ∨ l = .comment chars) →
      ¬(width front ≤ place ∧ place < width front + l.text.length)

/-! ## Headers whose brace counts -/

/-- The lexemes of a text around the heading of a header whose brace counts. -/
structure IsOpened (cs : List Char) (header : Header) (fs ms after : List Lexeme) : Prop where
  ofText_eq : ofText cs = fs ++ (ms ++ openBrace :: after)
  width_front : width fs = header.offset
  width_heading : header.offset + width ms = header.brace
  exists_cons : ∃ c more, ms = other c :: more
  isFlat : ∀ l ∈ ms, l.isFlat = true

variable {keyword cs : List Char} {header : Header} {close : Nat}

/-- A brace that is closed counts. -/
theorem exists_opensBehind {front back : List Char}
    (h : closingOf? (bracePairs (front ++ '{' :: back)) front.length = some close) :
    ∃ ls, OpensBehind front back ls := by
  obtain ⟨f, hbrace, -⟩ := exists_factor_of_closingOf? h
  obtain ⟨hfront, hbehind⟩ := List.append_inj f.text_eq hbrace
  have hcut : ofText (front ++ '{' :: back) =
      (f.front ++ [openBrace]) ++ (f.inner ++ closeBrace :: f.back) := by
    rw [List.append_assoc, List.singleton_append]
    exact f.eq_append
  have hback : (f.inner ++ closeBrace :: f.back).flatMap text = back := by
    simpa [text] using (List.cons.inj hbehind).2.symm
  have hafter := ofText_back hcut
  rw [hback] at hafter
  refine ⟨f.front, ?_, hfront.symm⟩
  rw [hafter]
  exact f.eq_append

theorem exists_isOpened (hkeyword : IsKeyword keyword) (h : StandsIn keyword cs header)
    (hclose : closingOf? (bracePairs cs) header.brace = some close) :
    ∃ fs ms after, IsOpened cs header fs ms after := by
  obtain ⟨front, heading, back, labels, rfl, hfront, hheading, rfl⟩ := h
  simp only [← List.append_assoc, ← List.length_append] at hclose
  obtain ⟨ls, hopens⟩ := exists_opensBehind hclose
  obtain ⟨fs, ms, rfl, hlines, hms⟩ := hopens.exists_append hkeyword hfront hheading
  obtain ⟨hcons, hflat⟩ := hms.isFlat_heading hkeyword hheading
  refine ⟨fs, ms, ofText back, ?_, ?_, ?_, hcons, hflat⟩
  · rw [← List.append_assoc, ← List.append_assoc]
    exact hopens.1
  · rw [width, hlines]
  · rw [width, hms.2]

/-- The line of such a header starts outside of strings and comments. -/
theorem IsOpened.isOutside {fs ms after : List Lexeme} (h : IsOpened cs header fs ms after) :
    IsOutside cs header.offset := by
  rintro front l back htext ⟨chars, hkind⟩ ⟨hfrom, hto⟩
  obtain ⟨c, more, rfl⟩ := h.exists_cons
  have hsplit := htext.symm.trans h.ofText_eq
  rw [← h.width_front] at hfrom hto
  rcases Nat.lt_or_eq_of_le hfrom with hlt | heq
  · have := width_add_le hsplit hlt
    omega
  -- At the start of the line a character of the heading stands.
  · have hne : ∀ l' ∈ front ++ l :: back, l'.text ≠ [] := by
      rw [← htext]
      exact fun l' => text_ne_nil_of_mem_ofText
    obtain ⟨-, hl⟩ := append_left_inj_of_width_eq hne hsplit heq
    obtain ⟨rfl, -⟩ := List.cons.inj hl
    rcases hkind with hkind | hkind <;> cases hkind

/-- No block is closed within a header whose brace counts. -/
theorem IsOpened.lt_offset_of_closingOf? {fs ms after : List Lexeme}
    (h : IsOpened cs header fs ms after) {start stop : Nat}
    (hclose : closingOf? (bracePairs cs) start = some stop) (hstop : stop ≤ header.brace) :
    stop < header.offset := by
  obtain ⟨f, rfl, rfl⟩ := exists_factor_of_closingOf? hclose
  by_contra hle
  have hopen : width [openBrace] = 1 := rfl
  have hsplit : (f.front ++ openBrace :: f.inner) ++ closeBrace :: f.back =
      fs ++ ((ms ++ [openBrace]) ++ after) := by
    rw [List.append_assoc, List.append_assoc, List.singleton_append, ← h.ofText_eq]
    exact f.eq_append.symm
  have hwidth : width (f.front ++ openBrace :: f.inner) = width f.front + 1 + width f.inner := by
    rw [width_append, width_cons]
    exact (Nat.add_assoc _ _ _).symm
  have hmem : closeBrace ∈ ms ++ [openBrace] := by
    obtain ⟨more, rest, -, hms⟩ := exists_append_of_width (by decide) hsplit
      (by rw [hwidth, h.width_front]; omega)
      (by rw [hwidth, width_append, hopen, h.width_front, ← Nat.add_assoc, h.width_heading]; omega)
    rw [hms]
    simp
  rcases List.mem_append.mp hmem with hmem | hmem
  · cases h.isFlat _ hmem
  · cases List.mem_singleton.mp hmem

/-! ## Blocks -/

theorem StandsIn.offset_le (h : StandsIn keyword cs header) : header.offset ≤ header.brace := by
  obtain ⟨front, heading, back, labels, -, -, -, rfl⟩ := h
  exact Nat.le_add_right _ _

theorem lt_of_closingOf? {start stop : Nat} (h : closingOf? (bracePairs cs) start = some stop) :
    start < stop := by
  obtain ⟨f, rfl, rfl⟩ := exists_factor_of_closingOf? h
  omega

/-- Headers of a text with the places where their blocks are closed: all those that are closed and
stand behind the blocks before, in the order of the text, none within a string or a comment, and
no block reaching up to the next header. -/
structure IsExtraction (keyword cs : List Char) (found : List (Header × Nat)) : Prop where
  isSorted : found.Pairwise fun p q => p.1.offset < q.1.offset
  mem_iff : ∀ header close, (header, close) ∈ found ↔ StandsIn keyword cs header ∧
    closingOf? (bracePairs cs) header.brace = some close ∧
    ∀ p ∈ found, p.1.offset < header.offset → p.2 < header.brace
  isDisjoint : found.Pairwise fun p q => p.2 < q.1.offset
  offset_lt : ∀ p ∈ found, p.1.offset < p.2
  isOutside : ∀ p ∈ found, IsOutside cs p.1.offset

/-- Headers that are taken whenever their brace stands behind the blocks before stand behind those
blocks with their lines. -/
theorem isExtraction_of_mem_iff (hkeyword : IsKeyword keyword) {found : List (Header × Nat)}
    (hsorted : found.Pairwise fun p q => p.1.offset < q.1.offset)
    (hmem : ∀ header close, (header, close) ∈ found ↔ StandsIn keyword cs header ∧
      closingOf? (bracePairs cs) header.brace = some close ∧
      ∀ p ∈ found, p.1.offset < header.offset → p.2 ≤ header.brace) :
    IsExtraction keyword cs found := by
  have hbefore {header : Header} {close : Nat} (hstands : StandsIn keyword cs header)
      (hclose : closingOf? (bracePairs cs) header.brace = some close) {p : Header × Nat}
      (hp : p ∈ found) (hle : p.2 ≤ header.brace) : p.2 < header.offset := by
    obtain ⟨fs, ms, after, hopened⟩ := exists_isOpened hkeyword hstands hclose
    exact hopened.lt_offset_of_closingOf? ((hmem _ _).mp hp).2.1 hle
  refine ⟨hsorted, ?_, ?_, ?_, ?_⟩
  · intro header close
    rw [hmem]
    refine and_congr_right fun hstands => and_congr_right fun hclose => ?_
    constructor
    · intro h p hp hlt
      have hend := hbefore hstands hclose hp (h p hp hlt)
      exact Nat.lt_of_lt_of_le hend hstands.offset_le
    · exact fun h p hp hlt => Nat.le_of_lt (h p hp hlt)
  · refine hsorted.imp_of_mem fun {p q} hp hq hlt => ?_
    obtain ⟨hstands, hclose, hends⟩ := (hmem _ _).mp hq
    exact hbefore hstands hclose hp (hends p hp hlt)
  · intro p hp
    obtain ⟨hstands, hclose, -⟩ := (hmem _ _).mp hp
    exact Nat.lt_of_le_of_lt hstands.offset_le (lt_of_closingOf? hclose)
  · intro p hp
    obtain ⟨hstands, hclose, -⟩ := (hmem _ _).mp hp
    obtain ⟨fs, ms, after, hopened⟩ := exists_isOpened hkeyword hstands hclose
    exact hopened.isOutside

/-- The blocks of a keyword are the closed ones of its headers, taken in the order of the text. -/
theorem exists_isExtraction_blocks (keyword : String) (hkeyword : IsKeyword keyword.toList)
    (cs : List Char) : ∃ found, blocks keyword cs = found.map (blockOf keyword cs) ∧
      IsExtraction keyword.toList cs found := by
  have hheaders := pairwise_headers keyword.toList cs
  refine ⟨_, closedBlocks_eq_map keyword cs _ _ _, isExtraction_of_mem_iff hkeyword ?_ ?_⟩
  · have hfirsts := hheaders.sublist (map_fst_taken_sublist (bracePairs cs) 0 _)
    rwa [List.pairwise_map] at hfirsts
  · intro header close
    rw [mem_taken_iff hheaders fun _ _ => lt_of_closingOf?, mem_headers_iff hkeyword]
    simp only [Nat.zero_le, true_and]

/-- A text with a header in a comment, one in a string that goes on to the next line, and one within
the block of another. -/
def hiddenHeaders : List Char :=
  Text.unlines [
    "/*".toList,
    "resource \"a\" \x7b\x7d".toList,
    "*/".toList,
    "x = \"\\".toList,
    "resource \"b\" \x7b\x7d".toList,
    "resource \"c\" \x7b".toList,
    "resource \"d\" \x7b\x7d".toList,
    "\x7d".toList]

theorem exists_isExtraction_blocks_hiddenHeaders : IsKeyword "resource".toList ∧
    (blocks "resource" hiddenHeaders).map Block.labels = [["c"]] ∧
    ∃ found, blocks "resource" hiddenHeaders = found.map (blockOf "resource" hiddenHeaders) ∧
      IsExtraction "resource".toList hiddenHeaders found := by
  have hkeyword : IsKeyword "resource".toList := ⟨by decide, by decide⟩
  exact ⟨hkeyword, by decide +kernel, exists_isExtraction_blocks "resource" hkeyword hiddenHeaders⟩

end Schematic.Hcl
