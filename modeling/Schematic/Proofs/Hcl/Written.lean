import Schematic.Hcl.Attribute
import Schematic.Proofs.Hcl.Brace
import Schematic.Proofs.Text.Blank

/-!
# Lexemes of written text

What lexemes a text has that is put together piece by piece. Plain characters are lexemes of their
own and a string in quotes is one lexeme, whatever follows them. Braces count only outside of
these, so the braces of a text written in this way are balanced by construction.

## Main definitions

- `HasLexemes` — a text has these lexemes in front of whatever follows
- `isPlain`, `IsQuotable` — characters that begin no other lexeme, and text that may be quoted
- `IsFlat`, `IsBraceless` — text without braces and comments, and without braces
- `Balanced` — lexemes whose braces are all closed
- `FillsBlock` — text that a block is closed behind

## Main statements

- `HasLexemes.append` — pieces of text put together
- `Balanced.cutBlock?_append` — cutting out a block passes over balanced lexemes
- `closedBlocks_cons` — the block of a header with text behind it that fills a block
-/

namespace Schematic.Hcl

open Lexeme
open Text (unlines unlines_cons unlines_append)

/-! ## Pieces of text -/

/-- A text has these lexemes in front of whatever follows it. -/
def HasLexemes (cs : List Char) (ls : List Lexeme) : Prop :=
  ∀ rest, ofText (cs ++ rest) = ls ++ ofText rest

namespace HasLexemes

variable {cs ds : List Char} {ls ms : List Lexeme}

theorem nil : HasLexemes [] [] :=
  fun _ => rfl

theorem append (hc : HasLexemes cs ls) (hd : HasLexemes ds ms) :
    HasLexemes (cs ++ ds) (ls ++ ms) := by
  intro rest
  rw [List.append_assoc, hc, hd, List.append_assoc]

theorem ofText_eq (h : HasLexemes cs ls) : ofText cs = ls := by
  simpa [ofText_nil] using h []

theorem flatMap_text (h : HasLexemes cs ls) : ls.flatMap text = cs := by
  rw [← h.ofText_eq, flatMap_text_ofText]

theorem width_eq (h : HasLexemes cs ls) : width ls = cs.length := by
  rw [width, h.flatMap_text]

end HasLexemes

/-! ## Plain characters -/

/-- A character that begins no lexeme of several characters and is no brace. -/
def isPlain (c : Char) : Bool :=
  c != '"' && c != '{' && c != '}' && c != '#' && c != '/'

/-- The characters of a class are plain if it leaves out the five that are not. -/
theorem isPlain_of_class {p : Char → Bool} {c : Char} (h : p c = true)
    (hp : ∀ d ∈ ['"', '{', '}', '#', '/'], p d = false) : isPlain c = true := by
  have hne : ∀ d ∈ ['"', '{', '}', '#', '/'], c ≠ d := fun d hd => Text.ne_of_class h (hp d hd)
  simpa [isPlain, and_assoc] using hne

theorem cutComment?_eq_none {c : Char} {rest : List Char} (hhash : c ≠ '#')
    (hslash : c = '/' → ∀ d more, rest = d :: more → d ≠ '/' ∧ d ≠ '*') :
    cutComment? (c :: rest) = none := by
  unfold cutComment?
  split
  · next heq => exact absurd (List.cons.inj heq).1 hhash
  · next heq =>
    obtain ⟨rfl, rfl⟩ := List.cons.inj heq
    exact absurd rfl (hslash rfl _ _ rfl).1
  · next heq =>
    obtain ⟨rfl, rfl⟩ := List.cons.inj heq
    exact absurd rfl (hslash rfl _ _ rfl).2
  · rfl

theorem next_eq_other {c : Char} {rest : List Char} (hcomment : cutComment? (c :: rest) = none)
    (hquote : c ≠ '"') (hopen : c ≠ '{') (hclose : c ≠ '}') : next c rest = (other c, rest) := by
  rw [next, hcomment]
  simp only [if_neg hquote, if_neg hopen, if_neg hclose]

/-- A plain character is a lexeme of its own. -/
theorem hasLexemes_char {c : Char} (h : isPlain c = true) : HasLexemes [c] [other c] := by
  simp only [isPlain, Bool.and_eq_true, bne_iff_ne] at h
  obtain ⟨⟨⟨⟨hquote, hopen⟩, hclose⟩, hhash⟩, hslash⟩ := h
  intro rest
  have hcomment : cutComment? (c :: rest) = none :=
    cutComment?_eq_none hhash fun hc => absurd hc hslash
  rw [List.singleton_append, ofText_cons, next_eq_other hcomment hquote hopen hclose]
  rfl

/-- So are many of them. -/
theorem hasLexemes_plain {cs : List Char} (h : ∀ c ∈ cs, isPlain c = true) :
    HasLexemes cs (cs.map other) := by
  induction cs with
  | nil => exact HasLexemes.nil
  | cons c cs ih =>
    have hc := hasLexemes_char (h c List.mem_cons_self)
    exact hc.append (ih fun d hd => h d (List.mem_cons_of_mem _ hd))

theorem hasLexemes_openBrace : HasLexemes ['{'] [openBrace] := by
  intro rest
  rw [List.singleton_append, ofText_cons]
  rfl

theorem hasLexemes_closeBrace : HasLexemes ['}'] [closeBrace] := by
  intro rest
  rw [List.singleton_append, ofText_cons]
  rfl

/-! ## Text in quotes -/

/-- Text that may stand between quotes as it is. -/
def IsQuotable (cs : List Char) : Prop :=
  ∀ c ∈ cs, c ≠ '"' ∧ c ≠ '\\' ∧ c ≠ '\n'

instance (cs : List Char) : Decidable (IsQuotable cs) :=
  inferInstanceAs (Decidable (∀ c ∈ cs, c ≠ '"' ∧ c ≠ '\\' ∧ c ≠ '\n'))

/-- A text in quotes. -/
def inQuotes (cs : List Char) : List Char :=
  '"' :: cs ++ ['"']

theorem feed_not_mem_inQuotes {cs : List Char} (h : IsQuotable cs) : '\n' ∉ inQuotes cs := by
  have hfeed : '\n' ∉ cs := fun hmem => (h _ hmem).2.2 rfl
  simp [inQuotes, hfeed]

theorem IsQuotable.tail {c : Char} {cs : List Char} (h : IsQuotable (c :: cs)) : IsQuotable cs :=
  fun d hd => h d (List.mem_cons_of_mem _ hd)

/-- Such text belongs to the literal that it stands in. -/
theorem cutLiteral_quotable {cs : List Char} (h : IsQuotable cs) (rest : List Char) :
    cutLiteral (cs ++ rest) = (cs ++ (cutLiteral rest).1, (cutLiteral rest).2) := by
  induction cs with
  | nil => rfl
  | cons c cs ih =>
    obtain ⟨hquote, hescape, hfeed⟩ := h c List.mem_cons_self
    rw [List.cons_append, cutLiteral_cons hquote hfeed hescape, ih h.tail]
    rfl

theorem cutLiteral_append_quote {cs : List Char} (h : IsQuotable cs) (rest : List Char) :
    cutLiteral (cs ++ '"' :: rest) = (cs ++ ['"'], rest) :=
  cutLiteral_quotable h ('"' :: rest)

/-- A text in quotes is one lexeme. -/
theorem hasLexemes_inQuotes {cs : List Char} (h : IsQuotable cs) :
    HasLexemes (inQuotes cs) [literal (inQuotes cs)] := by
  intro rest
  have hnext : next '"' (cs ++ '"' :: rest) = (literal (inQuotes cs), rest) := by
    rw [next, cutComment?_eq_none (by decide) (by simp)]
    simp [cutLiteral_append_quote h, inQuotes]
  have happend : inQuotes cs ++ rest = '"' :: (cs ++ '"' :: rest) := by
    simp [inQuotes]
  rw [happend, ofText_cons, hnext]
  rfl

/-! ## Lines -/

/-- The first character of a line is no line feed. -/
theorem beq_feed_eq_false {c : Char} {line : List Char} (h : '\n' ∉ c :: line) :
    (c == '\n') = false := by
  rw [beq_eq_false_iff_ne]
  rintro rfl
  exact h List.mem_cons_self

/-! ## Flat text -/

/-- A string literal or a character of its own: no brace and no comment. -/
def Lexeme.isFlat : Lexeme → Bool
  | literal _ | other _ => true
  | comment _ | openBrace | closeBrace => false

/-- A text of such lexemes only. -/
def IsFlat (cs : List Char) : Prop :=
  ∃ ls, HasLexemes cs ls ∧ ∀ l ∈ ls, l.isFlat = true

theorem IsFlat.append {cs ds : List Char} (hc : IsFlat cs) (hd : IsFlat ds) :
    IsFlat (cs ++ ds) := by
  obtain ⟨ls, hls, hflat⟩ := hc
  obtain ⟨ms, hms, hflat'⟩ := hd
  refine ⟨ls ++ ms, hls.append hms, fun l hl => ?_⟩
  rcases List.mem_append.mp hl with hl | hl
  · exact hflat l hl
  · exact hflat' l hl

theorem isFlat_plain {cs : List Char} (h : ∀ c ∈ cs, isPlain c = true) : IsFlat cs := by
  refine ⟨cs.map other, hasLexemes_plain h, fun l hl => ?_⟩
  obtain ⟨c, -, rfl⟩ := List.mem_map.mp hl
  rfl

theorem isFlat_inQuotes {cs : List Char} (h : IsQuotable cs) : IsFlat (inQuotes cs) := by
  refine ⟨[literal (inQuotes cs)], hasLexemes_inQuotes h, fun l hl => ?_⟩
  rw [List.mem_singleton.mp hl]
  rfl

/-- Flat lines are flat together. -/
theorem isFlat_unlines {lines : List (List Char)} (h : ∀ line ∈ lines, IsFlat line) :
    IsFlat (unlines lines) := by
  induction lines with
  | nil => exact @isFlat_plain [] (by simp)
  | cons line lines ih =>
    have hline := (h line List.mem_cons_self).append (@isFlat_plain ['\n'] (by decide))
    exact hline.append (ih fun l hl => h l (List.mem_cons_of_mem _ hl))

/-- A text without braces outside of quotes and comments. -/
def IsBraceless (cs : List Char) : Prop :=
  ∃ ls, HasLexemes cs ls ∧ ∀ l ∈ ls, l ≠ openBrace ∧ l ≠ closeBrace

theorem IsFlat.isBraceless {cs : List Char} (h : IsFlat cs) : IsBraceless cs := by
  obtain ⟨ls, hls, hflat⟩ := h
  refine ⟨ls, hls, fun l hl => ?_⟩
  have hl := hflat l hl
  constructor <;> rintro rfl <;> cases hl

theorem IsBraceless.append {cs ds : List Char} (hc : IsBraceless cs) (hd : IsBraceless ds) :
    IsBraceless (cs ++ ds) := by
  obtain ⟨ls, hls, hc⟩ := hc
  obtain ⟨ms, hms, hd⟩ := hd
  refine ⟨ls ++ ms, hls.append hms, fun l hl => ?_⟩
  rcases List.mem_append.mp hl with hl | hl
  · exact hc l hl
  · exact hd l hl

/-! ## Balanced lexemes -/

/-- Lexemes whose braces are all closed. -/
inductive Balanced : List Lexeme → Prop where
  | nil : Balanced []
  | cons {l : Lexeme} {ls : List Lexeme} (hopen : l ≠ openBrace) (hclose : l ≠ closeBrace)
      (h : Balanced ls) : Balanced (l :: ls)
  | block {inner ls : List Lexeme} (hinner : Balanced inner) (h : Balanced ls) :
      Balanced (openBrace :: (inner ++ closeBrace :: ls))

namespace Balanced

theorem append {ls ms : List Lexeme} (hl : Balanced ls) (hm : Balanced ms) :
    Balanced (ls ++ ms) := by
  induction hl with
  | nil => exact hm
  | cons hopen hclose _ ih => exact .cons hopen hclose ih
  | block hinner _ _ ih =>
    rw [List.cons_append, List.append_assoc, List.cons_append]
    exact .block hinner ih

/-- Lexemes without braces are balanced. -/
theorem of_forall {ls : List Lexeme} (h : ∀ l ∈ ls, l ≠ openBrace ∧ l ≠ closeBrace) :
    Balanced ls := by
  induction ls with
  | nil => exact .nil
  | cons l ls ih =>
    obtain ⟨hopen, hclose⟩ := h l List.mem_cons_self
    exact .cons hopen hclose (ih fun m hm => h m (List.mem_cons_of_mem _ hm))

theorem of_isFlat {ls : List Lexeme} (h : ∀ l ∈ ls, l.isFlat = true) : Balanced ls := by
  refine of_forall fun l hl => ?_
  have hflat := h l hl
  constructor <;> rintro rfl <;> cases hflat

/-- Cutting out a block passes over balanced lexemes. -/
theorem cutBlock?_append {ls : List Lexeme} (h : Balanced ls) (depth : Nat)
    (rest : List Lexeme) : cutBlock? depth (ls ++ rest) =
      (cutBlock? depth rest).map fun (inner, back) => (ls ++ inner, back) := by
  induction h generalizing depth rest with
  | nil => simp
  | cons hopen hclose _ ih =>
    rw [List.cons_append, cutBlock?_cons hopen hclose, ih, Option.map_map]
    rfl
  | @block inner ls _ _ ihinner ih =>
    have hsplit : openBrace :: (inner ++ closeBrace :: ls) ++ rest =
        openBrace :: (inner ++ (closeBrace :: (ls ++ rest))) := by simp
    -- One level deeper for the inside, and back at the brace that closes it.
    rw [hsplit, cutBlock?, ihinner, cutBlock?, ih]
    simp only [Option.map_map]
    congr 1
    funext cut
    cases cut
    simp

/-- The block that balanced lexemes are the inside of. -/
theorem cutBlock?_closeBrace {ls : List Lexeme} (h : Balanced ls) (rest : List Lexeme) :
    cutBlock? 0 (ls ++ closeBrace :: rest) = some (ls, rest) := by
  rw [h.cutBlock?_append, cutBlock?]
  simp

end Balanced

/-! ## Written blocks -/

/-- Text that may stand in a block: a brace behind it closes the block, whatever follows that. -/
structure FillsBlock (body : List Char) (ls : List Lexeme) : Prop where
  hasLexemes : HasLexemes (body ++ ['}']) (ls ++ [closeBrace])
  cutBlock_eq : ∀ rest, cutBlock? 0 (ls ++ closeBrace :: rest) = some (ls, rest)

/-- Balanced text may stand in a block. -/
theorem HasLexemes.fillsBlock {body : List Char} {ls : List Lexeme} (h : HasLexemes body ls)
    (hbalanced : Balanced ls) : FillsBlock body ls :=
  ⟨h.append hasLexemes_closeBrace, hbalanced.cutBlock?_closeBrace⟩

theorem FillsBlock.flatMap_text {body : List Char} {ls : List Lexeme} (h : FillsBlock body ls) :
    ls.flatMap text = body := by
  have hall := h.hasLexemes.flatMap_text
  rw [List.flatMap_append] at hall
  exact List.append_cancel_right hall

/-- A brace, text that fills a block and the brace that closes it are a closed pair. -/
theorem exists_factor_of_hasLexemes {front body : List Char} {ls ms : List Lexeme}
    (hfront : HasLexemes front (ls ++ [openBrace])) (hbody : FillsBlock body ms)
    (rest : List Char) : ∃ f : Factor (ofText (front ++ (body ++ '}' :: rest))),
      width f.front + 1 = front.length ∧ f.inner.flatMap text = body := by
  have htext : front ++ (body ++ '}' :: rest) = front ++ (body ++ ['}']) ++ rest := by simp
  have hlexemes := (hfront.append hbody.hasLexemes) rest
  rw [← htext] at hlexemes
  refine ⟨⟨ls, ms, ofText rest, ?_, hbody.cutBlock_eq _⟩, ?_, hbody.flatMap_text⟩
  · rw [hlexemes]
    simp
  · show width ls + 1 = front.length
    rw [← hfront.width_eq, width_append]
    rfl

/-- A header that ends at a brace with such text behind it has a block, which covers the text up
to the brace that closes it. -/
theorem closedBlocks_cons {front body : List Char} {ls ms : List Lexeme}
    (hfront : HasLexemes front (ls ++ [openBrace])) (hbody : FillsBlock body ms)
    {rest cs : List Char} (hcs : cs = front ++ (body ++ '}' :: rest)) {header : Header}
    (hbrace : header.brace + 1 = front.length) {covered : Nat} (hcovered : covered ≤ header.brace)
    (keyword : String) (headers : List Header) :
    closedBlocks keyword cs (bracePairs cs) covered (header :: headers) =
      ⟨keyword, header.labels, body, header.offset⟩ ::
        closedBlocks keyword cs (bracePairs cs) (front.length + body.length) headers := by
  subst hcs
  obtain ⟨f, hwidth, hinner⟩ := exists_factor_of_hasLexemes hfront hbody rest
  have hclosing := closingOf?_eq_some f
  have htake := f.take_drop
  have hlength : width f.inner = body.length := by rw [width, hinner]
  have hopen : width f.front = header.brace := by omega
  rw [hopen] at hclosing
  rw [hopen, hinner, hlength, hbrace] at htake
  rw [closedBlocks, if_neg (Nat.not_lt.mpr hcovered), hclosing]
  simp only [Nat.add_sub_cancel_left, hlength, hbrace, htake]

end Schematic.Hcl
