import Schematic.Proofs.Hcl.Heading
import Schematic.Proofs.Hcl.Matching
import Schematic.Proofs.Hcl.Outside

/-!
# Reading written blocks

Blocks that are written one after the other are read back as they are, if the brace behind a body
is the one that closes it. A body may hold anything else: further blocks, braces in strings and
comments, strings that are not closed. The brace is a lexeme of its own, so the reader of lexemes
is back at its start behind it. Lines of a body may well look like headers, but the braces of these
stand inside of the block that is found first, so they are passed over.

## Main definitions

- `BlockText` — what a block is written from
- `written` — the text of blocks one after the other

## Main statements

- `exists_fillsBlock` — a body fits in a block, wherever that stands, if it fits in one by itself
- `exists_headersFrom_append` — the headers of a text and those behind its last line
- `blocks_written` — the blocks of a written text are those that it was written from
-/

namespace Schematic.Hcl

open Lexeme

/-! ## Bodies -/

/-- A body that is closed by the brace behind it fills a block, whatever follows that. -/
theorem exists_fillsBlock {body : List Char}
    (h : blockEnd? ('{' :: (body ++ ['}'])) 0 = some (body.length + 1)) :
    ∃ ls, FillsBlock body ls := by
  have hopen : ofText ('{' :: (body ++ ['}'])) = [] ++ openBrace :: ofText (body ++ ['}']) :=
    hasLexemes_openBrace _
  have hend := blockEnd?_width hopen
  rw [width_nil, h] at hend
  obtain ⟨⟨ls, after⟩, hcut, hwidth⟩ := Option.map_eq_some_iff.mp hend.symm
  have hwidth : 0 + 1 + width ls = body.length + 1 := hwidth
  have hsplit := (append_of_cutBlock? hcut).symm
  -- The brace that is found is the last character, so nothing stands behind it.
  have htext : body ++ ['}'] = ls.flatMap text ++ '}' :: after.flatMap text := by
    rw [← flatMap_text_ofText (body ++ ['}']), hsplit]
    simp [text]
  have hlength : body.length = (ls.flatMap text).length := by
    show body.length = width ls
    omega
  obtain ⟨hbody, hbehind⟩ := List.append_inj htext hlength
  have hafter : after = [] := by
    apply List.eq_nil_iff_forall_not_mem.mpr
    intro l hl
    have hne : l.text ≠ [] := text_ne_nil_of_mem_ofText (by rw [hsplit]; simp [hl])
    have hnil := List.flatMap_eq_nil_iff.mp (List.cons.inj hbehind).2.symm l hl
    exact hne hnil
  subst hafter
  have hfront : ofText body = ls := by
    rw [hbody]
    exact ofText_front hsplit
  refine ⟨ls, fun rest => ?_, fun rest => ?_⟩
  · have hrest : EndsSlash ('}' :: rest) := fun c hc => Option.some.inj hc ▸ by decide
    have happend : ofText (body ++ '}' :: rest) = ofText body ++ ofText ('}' :: rest) :=
      ofText_append_of_isInert (by decide) (hfront.symm ▸ hsplit) hrest
    rw [List.append_assoc, List.singleton_append, happend, hfront, List.append_assoc]
    exact congrArg _ (hasLexemes_closeBrace rest)
  · rw [hsplit] at hcut
    simpa using cutBlock?_append_of_some hcut rest

/-! ## Headers inside of a block -/

/-- No header starts at the end of a line. -/
theorem headersFrom_lineEnd {keyword : List Char} (hkeyword : IsKeyword keyword) (offset : Nat)
    (starts : Bool) (rest : List Char) : headersFrom keyword offset starts 0 ('\n' :: rest) =
      headersFrom keyword (offset + 1) true 0 rest := by
  cases starts with
  | false => exact headersFrom_feed keyword offset rest
  | true =>
    have hfeed : '\n' ∉ keyword := Text.not_mem_of_class hkeyword.isIdentRest (by decide)
    obtain ⟨k, ks, rfl⟩ := List.exists_cons_of_ne_nil hkeyword.ne_nil
    have hne : k ≠ '\n' := fun h => hfeed (h ▸ List.mem_cons_self)
    exact headersFrom_line List.not_mem_nil (header?_eq_none_of_ne (by decide) hne) offset

/-- A heading in front of the end of a line ends there at the latest, with its brace. -/
theorem IsHeading.exists_append {keyword heading front rest left : List Char}
    {labels : List (List Char)} (hkeyword : IsKeyword keyword)
    (h : IsHeading keyword labels heading)
    (heq : front ++ '\n' :: rest = heading ++ '{' :: left) :
    ∃ more, front = heading ++ '{' :: more := by
  rw [List.append_cons heading] at heq
  rcases List.append_eq_append_iff.mp heq with ⟨more, hhead, hrest⟩ | ⟨more, rfl, -⟩
  · have hfeed : '\n' ∉ heading ++ ['{'] := by simp [h.feed_not_mem hkeyword]
    cases more with
    | nil => exact ⟨[], by simpa using hhead.symm⟩
    | cons c more =>
      obtain ⟨rfl, -⟩ := List.cons.inj hrest
      exact absurd (by rw [hhead]; simp) hfeed
  · exact ⟨more, by simp⟩

/-- The headers of a text with a line behind it are those with their brace in the text, and those
from the next line on. What is passed over is part of the text. -/
theorem exists_headersFrom_append {keyword : List Char} (hkeyword : IsKeyword keyword)
    (front rest : List Char) (offset : Nat) (starts : Bool) {skipped : Nat}
    (hskipped : skipped ≤ front.length) :
    ∃ inner, headersFrom keyword offset starts skipped (front ++ '\n' :: rest) =
        inner ++ headersFrom keyword (offset + front.length + 1) true 0 rest ∧
      ∀ header ∈ inner, ∃ place, header.brace = offset + place ∧ front[place]? = some '{' := by
  induction front generalizing offset starts skipped with
  | nil =>
    obtain rfl := Nat.le_zero.mp hskipped
    exact ⟨[], headersFrom_lineEnd hkeyword offset starts rest, by simp⟩
  | cons c front ih =>
    -- A header further on has its brace in the text behind the first character.
    have hshift {inner : List Header} (h : ∀ header ∈ inner, ∃ place,
        header.brace = offset + 1 + place ∧ front[place]? = some '{') :
        ∀ header ∈ inner, ∃ place,
          header.brace = offset + place ∧ (c :: front)[place]? = some '{' := by
      intro header hmem
      obtain ⟨place, hbrace, hplace⟩ := h header hmem
      exact ⟨place + 1, by omega, hplace⟩
    have hlength : offset + (c :: front).length + 1 = offset + 1 + front.length + 1 := by
      rw [List.length_cons]
      omega
    rw [hlength, List.cons_append]
    cases skipped with
    | succ skipped =>
      obtain ⟨inner, heq, hinner⟩ := ih (offset + 1) (c == '\n') (Nat.le_of_succ_le_succ hskipped)
      exact ⟨inner, heq, hshift hinner⟩
    | zero =>
      rw [headersFrom]
      split
      · next labels left hsome =>
        obtain ⟨-, heading, hheading, htext⟩ := (headerAt?_eq_some_iff hkeyword).mp hsome
        rw [← List.cons_append] at htext
        obtain ⟨more, hmore⟩ := hheading.exists_append hkeyword htext
        have hpassed : (front ++ '\n' :: rest).length + 1 - left.length = heading.length + 1 := by
          have := congrArg List.length htext
          simp only [List.length_cons, List.length_append] at this ⊢
          omega
        have hle : heading.length ≤ front.length := by
          have := congrArg List.length hmore
          simp only [List.length_cons, List.length_append] at this
          omega
        simp only [hpassed, Nat.add_sub_cancel]
        obtain ⟨inner, heq, hinner⟩ := ih (offset + 1) (c == '\n') hle
        refine ⟨_ :: inner, congrArg (_ :: ·) heq, ?_⟩
        exact List.forall_mem_cons.mpr ⟨⟨heading.length, rfl, by simp [hmore]⟩, hshift hinner⟩
      · obtain ⟨inner, heq, hinner⟩ := ih (offset + 1) (c == '\n') (Nat.zero_le _)
        exact ⟨inner, heq, hshift hinner⟩

/-- Headers inside of the block before are passed over. -/
theorem closedBlocks_append_of_covered (keyword : String) (cs : List Char)
    (pairs : List (Nat × Nat)) {covered : Nat} {inner : List Header}
    (h : ∀ header ∈ inner, header.brace < covered) (headers : List Header) :
    closedBlocks keyword cs pairs covered (inner ++ headers) =
      closedBlocks keyword cs pairs covered headers := by
  induction inner with
  | nil => rfl
  | cons header inner ih =>
    rw [List.forall_mem_cons] at h
    rw [List.cons_append, closedBlocks, if_pos h.1, ih h.2]

/-! ## Written blocks -/

/-- What a block is written from: labels that need no escapes, and a body that is closed by the
brace behind it. -/
structure BlockText where
  labels : List (List Char)
  body : List Char
  isQuotable : ∀ label ∈ labels, IsQuotable label
  blockEnd_eq : blockEnd? ('{' :: (body ++ ['}'])) 0 = some (body.length + 1)

namespace BlockText

variable (b : BlockText)

/-- The labels in quotes, with a blank between any two of them. -/
def quotedLabels : List Char :=
  [' '].intercalate (b.labels.map inQuotes)

/-- What stands in front of the brace. -/
def heading (keyword : List Char) : List Char :=
  keyword ++ ' ' :: (b.quotedLabels ++ [' '])

/-- The text of the block. -/
def chars (keyword : List Char) : List Char :=
  b.heading keyword ++ '{' :: (b.body ++ ['}', '\n'])

end BlockText

/-- Blocks one after the other. -/
def written (keyword : List Char) (bs : List BlockText) : List Char :=
  bs.flatMap fun b => b.chars keyword

/-! ### Labels and headings -/

/-- Labels in quotes with blanks between and behind them. -/
theorem quotedLabels_inQuotes {labels : List (List Char)}
    (h : ∀ label ∈ labels, IsQuotable label) :
    QuotedLabels ([' '].intercalate (labels.map inQuotes) ++ [' ']) labels ∧
      IsFlat ([' '].intercalate (labels.map inQuotes) ++ [' ']) := by
  have hblank : QuotedLabels [' '] [] := .gap (by decide) .nil
  have hgap : IsFlat [' '] := isFlat_plain (by decide)
  induction labels with
  | nil => exact ⟨hblank, hgap⟩
  | cons label labels ih =>
    rw [List.forall_mem_cons] at h
    obtain ⟨hlabel, hlabels⟩ := h
    have hquote : '"' ∉ label := fun hmem => (hlabel _ hmem).1 rfl
    have hfeed : '\n' ∉ label := fun hmem => (hlabel _ hmem).2.2 rfl
    have hcons {cs : List Char} : inQuotes label ++ cs = '"' :: (label ++ '"' :: cs) := by
      simp [inQuotes]
    cases labels with
    | nil =>
      rw [List.map_singleton, List.intercalate_singleton]
      exact ⟨hcons ▸ .label hquote hfeed hblank, (isFlat_inQuotes hlabel).append hgap⟩
    | cons next labels =>
      obtain ⟨hquoted, hflat⟩ := ih hlabels
      rw [List.map_cons, List.map_cons, List.intercalate_cons_cons, ← List.map_cons,
        List.append_assoc, List.append_assoc, List.singleton_append]
      constructor
      · exact hcons ▸ .label hquote hfeed (.gap (by decide) hquoted)
      · exact (isFlat_inQuotes hlabel).append (hgap.append hflat)

namespace BlockText

variable (b : BlockText) {keyword : List Char}

theorem isHeading_heading : IsHeading keyword b.labels (b.heading keyword) :=
  ⟨[], _, rfl, by simp, .gap (by decide) (quotedLabels_inQuotes b.isQuotable).1⟩

theorem isFlat_heading (hkeyword : IsKeyword keyword) : IsFlat (b.heading keyword) := by
  have hword : IsFlat keyword := isFlat_plain hkeyword.isPlain
  have hgap : IsFlat [' '] := isFlat_plain (by decide)
  exact hword.append (hgap.append (quotedLabels_inQuotes b.isQuotable).2)

/-- The headers of a text that begins with a block: the one of the block, those in its body, and
those from the line behind it on. -/
theorem exists_headersFrom_chars (hkeyword : IsKeyword keyword) (offset : Nat)
    (rest : List Char) : ∃ inner,
      headersFrom keyword offset true 0 (b.chars keyword ++ rest) =
        ⟨offset, b.labels.map String.ofList, offset + (b.heading keyword).length⟩ ::
          (inner ++ headersFrom keyword (offset + (b.chars keyword).length) true 0 rest) ∧
      ∀ header ∈ inner,
        header.brace < offset + (b.heading keyword).length + 1 + b.body.length := by
  have hhead : '\n' ∉ b.heading keyword ++ ['{'] := by
    simp [b.isHeading_heading.feed_not_mem hkeyword]
  have htext : b.chars keyword ++ rest =
      (b.heading keyword ++ ['{']) ++ ((b.body ++ ['}']) ++ '\n' :: rest) := by
    simp [chars]
  have hread : header? keyword
      ((b.heading keyword ++ ['{']) ++ ((b.body ++ ['}']) ++ '\n' :: rest)) =
      some (b.labels, (b.body ++ ['}']) ++ '\n' :: rest) :=
    (header?_eq_some_iff hkeyword).mpr ⟨_, b.isHeading_heading, by simp⟩
  obtain ⟨inner, hinner, hbraces⟩ := exists_headersFrom_append hkeyword (b.body ++ ['}']) rest
    (offset + (b.heading keyword ++ ['{']).length) false (Nat.zero_le _)
  refine ⟨inner, ?_, fun header hmem => ?_⟩
  · rw [htext, headersFrom_head (by simp) hhead hread, hinner]
    simp only [chars, List.length_append, List.length_cons, List.length_nil]
    congr 3
    omega
  · obtain ⟨place, hbrace, hplace⟩ := hbraces header hmem
    -- The brace is an opening one, so it is not the last character.
    have hlt : place < b.body.length := by
      by_contra hle
      rw [List.getElem?_append_right (by omega)] at hplace
      have hmem := List.mem_of_getElem? hplace
      exact absurd (List.mem_singleton.mp hmem) (by decide)
    rw [hbrace, List.length_append, List.length_singleton]
    omega

end BlockText

/-! ### Blocks one after the other -/

section Chars

variable {keyword : String} {front : List Char} {ls : List Lexeme} (b : BlockText)

/-- What is in front of a text and its first block. -/
theorem BlockText.exists_hasLexemes_append (hkeyword : IsKeyword keyword.toList)
    (h : HasLexemes front ls) : ∃ ms, HasLexemes (front ++ b.chars keyword.toList) ms := by
  obtain ⟨hs, hheading, -⟩ := b.isFlat_heading hkeyword
  obtain ⟨bs, hbody⟩ := exists_fillsBlock b.blockEnd_eq
  have hfeed := hasLexemes_char (c := '\n') (by decide)
  have hall := h.append (hheading.append (hasLexemes_openBrace.append
    (hbody.hasLexemes.append hfeed)))
  have htext : b.chars keyword.toList =
      b.heading keyword.toList ++ (['{'] ++ (b.body ++ ['}'] ++ ['\n'])) := by
    simp [chars]
  exact ⟨_, htext ▸ hall⟩

/-- The block that stands first is closed by the brace behind its body, and the headers within it
are passed over. Behind its line the text goes on as if it started there. -/
theorem BlockText.exists_closedBlocks_chars (hkeyword : IsKeyword keyword.toList)
    (h : HasLexemes front ls) {cs rest : List Char}
    (hcs : cs = front ++ (b.chars keyword.toList ++ rest)) {covered : Nat}
    (hcovered : covered ≤ front.length) :
    ∃ close ≤ (front ++ b.chars keyword.toList).length,
      closedBlocks keyword cs (bracePairs cs) covered
          (headersFrom keyword.toList front.length true 0 (b.chars keyword.toList ++ rest)) =
        ⟨keyword, b.labels.map String.ofList, b.body, front.length⟩ ::
          closedBlocks keyword cs (bracePairs cs) close
            (headersFrom keyword.toList (front ++ b.chars keyword.toList).length true 0 rest) := by
  obtain ⟨hs, hheading, -⟩ := b.isFlat_heading hkeyword
  obtain ⟨bs, hbody⟩ := exists_fillsBlock b.blockEnd_eq
  obtain ⟨inner, hheaders, hinner⟩ := b.exists_headersFrom_chars hkeyword front.length rest
  have hopen := (h.append hheading).append hasLexemes_openBrace
  have htext : cs = front ++ b.heading keyword.toList ++ ['{'] ++
      (b.body ++ '}' :: '\n' :: rest) := by
    rw [hcs]
    simp [chars]
  have hlength : front.length + (b.heading keyword.toList).length + 1 =
      (front ++ b.heading keyword.toList ++ ['{']).length := by
    simp [Nat.add_assoc]
  refine ⟨(front ++ b.heading keyword.toList ++ ['{']).length + b.body.length, ?_, ?_⟩
  · simp only [chars, List.length_append, List.length_cons]
    omega
  · have hnext : (front ++ b.chars keyword.toList).length =
        front.length + (b.chars keyword.toList).length :=
      List.length_append
    rw [hheaders, closedBlocks_cons hopen hbody htext hlength (Nat.le_add_right_of_le hcovered),
      closedBlocks_append_of_covered _ _ _ (hlength ▸ hinner), hnext]

end Chars

/-- The blocks of a written text at a place where lexemes end. -/
theorem closedBlocks_written {keyword : String} (hkeyword : IsKeyword keyword.toList)
    {bs : List BlockText} {front : List Char} {ls : List Lexeme} (h : HasLexemes front ls)
    {cs : List Char} (hcs : cs = front ++ written keyword.toList bs) {covered : Nat}
    (hcovered : covered ≤ front.length) :
    (closedBlocks keyword cs (bracePairs cs) covered
      (headersFrom keyword.toList front.length true 0 (written keyword.toList bs))).map
        (fun block => (block.labels, block.body)) =
      bs.map fun b => (b.labels.map String.ofList, b.body) := by
  induction bs generalizing front ls covered with
  | nil => rfl
  | cons b bs ih =>
    have hwritten : written keyword.toList (b :: bs) =
        b.chars keyword.toList ++ written keyword.toList bs :=
      List.flatMap_cons
    rw [hwritten] at hcs ⊢
    obtain ⟨close, hclose, hblock⟩ := b.exists_closedBlocks_chars hkeyword h hcs hcovered
    obtain ⟨ms, hms⟩ := b.exists_hasLexemes_append hkeyword h
    have hrest := ih hms (hcs.trans (List.append_assoc _ _ _).symm) hclose
    rw [hblock, List.map_cons, List.map_cons, hrest]

/-- The blocks of a written text are those that it was written from, in the same order, whatever
their bodies hold. -/
theorem blocks_written (keyword : String) (hkeyword : IsKeyword keyword.toList)
    (bs : List BlockText) :
    (blocks keyword (written keyword.toList bs)).map (fun block => (block.labels, block.body)) =
      bs.map fun b => (b.labels.map String.ofList, b.body) :=
  closedBlocks_written hkeyword HasLexemes.nil (List.nil_append _).symm (Nat.zero_le _)

/-- A block with a block of the same keyword in it, a brace in a string and one in a comment. -/
def nestingBlock : BlockText where
  labels := ["a".toList, "b".toList]
  body := Text.unlines [
    [],
    "resource \"c\" \x7b\x7d".toList,
    "x = \"\x7d\" # \x7d".toList]
  isQuotable := by simp [IsQuotable]
  blockEnd_eq := by decide +kernel

/-- A block without labels and with a string that is not closed, in front of a line that looks like
a header. -/
def unclosedBlock : BlockText where
  labels := []
  body := Text.unlines [
    "x = \"\x7b".toList,
    "resource \"d\" \x7b".toList,
    "\x7d".toList]
  isQuotable := by simp
  blockEnd_eq := by decide +kernel

theorem blocks_written_nestingBlock : IsKeyword "resource".toList ∧
    (blocks "resource" (written "resource".toList [nestingBlock, unclosedBlock])).map
        (fun block => (block.labels, block.body)) =
      [(["a", "b"], nestingBlock.body), ([], unclosedBlock.body)] := by
  have hkeyword : IsKeyword "resource".toList := ⟨by simp, by decide⟩
  exact ⟨hkeyword, blocks_written "resource" hkeyword [nestingBlock, unclosedBlock]⟩

end Schematic.Hcl
