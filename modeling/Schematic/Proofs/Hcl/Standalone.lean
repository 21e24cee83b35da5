import Schematic.Proofs.Hcl.Enclosed
import Schematic.Proofs.Hcl.Outermost

/-!
# Bodies that stand alone

The body of a block is cut out of the text, and all that is read from it is read without the text
around it. Nothing is lost by that. Both braces of the block count, so no string and no comment of
the text reaches across one of them, and the body has the lexemes that stand between them. These are
balanced, since the block is closed by the first brace in front of which nothing that was opened
inside is open. So matching finds the same pairs in the body as it does there in the text, and taking
the body apart goes on to its end.

## Main definitions

- `Closes` — lexemes that close some blocks that were open before
- `Piece` — what a body is taken apart into, with what is kept of it
- `StandsAlone` — a body is read on its own as it is read in the text

## Main statements

- `balanced_of_cutBlock?` — what a block encloses is balanced
- `Balanced.exists_block` — a brace in balanced lexemes is closed there
- `Balanced.exists_pieces` — balanced lexemes are taken apart to their end
- `standsAlone_blocks` — the bodies of all blocks stand alone
-/

namespace Schematic.Hcl

open Lexeme

/-! ## Balanced lexemes -/

/-- Lexemes that close so many blocks that were open in front of them. All blocks that are opened
among them are closed there. -/
inductive Closes : Nat → List Lexeme → Prop where
  | balanced {ls : List Lexeme} (h : Balanced ls) : Closes 0 ls
  | closeBrace {depth : Nat} {front back : List Lexeme} (hfront : Balanced front)
      (h : Closes depth back) : Closes (depth + 1) (front ++ closeBrace :: back)

theorem Closes.append_left {depth : Nat} {front ls : List Lexeme} (hfront : Balanced front)
    (h : Closes depth ls) : Closes depth (front ++ ls) := by
  cases h with
  | balanced hls => exact .balanced (hfront.append hls)
  | closeBrace hmore hback =>
    rw [← List.append_assoc]
    exact .closeBrace (hfront.append hmore) hback

/-- What is cut out of a block closes as many blocks as are open between. -/
theorem closes_of_cutBlock? {depth : Nat} {ls inner back : List Lexeme}
    (h : cutBlock? depth ls = some (inner, back)) : Closes depth inner := by
  fun_induction cutBlock? depth ls generalizing inner back with
  | case1 => cases h
  | case2 depth rest ih =>
    obtain ⟨more, hcut, rfl⟩ := exists_of_map_cons h
    -- One block more is open behind the brace, and it is closed before all others.
    cases ih hcut with
    | @closeBrace _ front more hfront hmore =>
      have hblock := Closes.append_left (.block hfront .nil) hmore
      rw [List.cons_append, List.append_assoc] at hblock
      exact hblock
  | case3 rest =>
    obtain ⟨rfl, rfl⟩ := Prod.mk.inj (Option.some.inj h)
    exact .balanced .nil
  | case4 rest depth ih =>
    obtain ⟨more, hcut, rfl⟩ := exists_of_map_cons h
    exact .closeBrace .nil (ih hcut)
  | case5 depth l rest hopen hclose ih =>
    obtain ⟨more, hcut, rfl⟩ := exists_of_map_cons h
    exact Closes.append_left (.cons hopen hclose .nil) (ih hcut)

/-- What a block encloses is balanced. -/
theorem balanced_of_cutBlock? {ls inner back : List Lexeme}
    (h : cutBlock? 0 ls = some (inner, back)) : Balanced inner := by
  cases closes_of_cutBlock? h with
  | balanced hinner => exact hinner

namespace Balanced

variable {ls : List Lexeme}

/-- A brace that is opened in balanced lexemes is closed in them. -/
theorem exists_block {front back : List Lexeme} (h : Balanced (front ++ openBrace :: back)) :
    ∃ inner after, Balanced inner ∧ back = inner ++ closeBrace :: after := by
  generalize hls : front ++ openBrace :: back = ls at h
  induction h generalizing front back with
  | nil => simp at hls
  | cons hopen _ _ ih =>
    cases front with
    | nil => exact absurd (List.cons.inj hls).1.symm hopen
    | cons l front => exact ih (List.cons.inj hls).2
  | @block inner ls hinner _ ihinner ih =>
    cases front with
    | nil => exact ⟨inner, ls, hinner, (List.cons.inj hls).2⟩
    | cons l front =>
      -- The brace stands inside of this block or behind it.
      rcases List.append_eq_append_iff.mp (List.cons.inj hls).2 with
        ⟨more, rfl, hmore⟩ | ⟨more, rfl, hmore⟩
      · cases more with
        | nil => cases (List.cons.inj hmore).1
        | cons m more =>
          obtain ⟨rfl, rfl⟩ := List.cons.inj hmore
          obtain ⟨inner, after, hbalanced, rfl⟩ := ihinner rfl
          exact ⟨inner, after ++ closeBrace :: ls, hbalanced, by simp⟩
      · cases more with
        | nil => cases (List.cons.inj hmore).1
        | cons m more =>
          obtain ⟨rfl, rfl⟩ := List.cons.inj hmore
          exact ih rfl

end Balanced

/-! ## Taking balanced lexemes apart -/

/-- What a body is taken apart into: flat lexemes, comments and blocks. -/
inductive Piece where
  | kept (l : Lexeme) (h : l.isFlat = true)
  | remark (text : List Char)
  | block (inner : List Lexeme)

namespace Piece

/-- All lexemes of a piece. -/
def lexemes : Piece → List Lexeme
  | kept l _ => [l]
  | remark text => [comment text]
  | block inner => openBrace :: (inner ++ [closeBrace])

/-- What stands for a piece in the top-level text. -/
def top : Piece → List Char
  | kept l _ => l.text
  | remark _ => []
  | block _ => ['{', '}']

/-- The inner text of a block. -/
def inner? : Piece → Option (List Char)
  | block inner => some (inner.flatMap text)
  | _ => none

end Piece

/-- Balanced lexemes are taken apart to their end: no piece of them is left out. -/
theorem Balanced.exists_pieces {ls : List Lexeme} (h : Balanced ls) (before : List Char) :
    ∃ pieces : List Piece, ls = pieces.flatMap Piece.lexemes ∧
      (splitLexemes before ls).top = pieces.flatMap Piece.top ∧
      (splitLexemes before ls).nested.map Nested.inner = pieces.filterMap Piece.inner? := by
  induction h generalizing before with
  | nil =>
    rw [splitLexemes]
    exact ⟨[], rfl, rfl, rfl⟩
  | @cons l ls hopen hclose _ ih =>
    obtain ⟨pieces, rfl, htop, hnested⟩ := ih (l.text.reverse ++ before)
    cases l with
    | comment text =>
      rw [splitLexemes_comment]
      exact ⟨.remark text :: pieces, rfl, htop, hnested⟩
    | openBrace => exact absurd rfl hopen
    | closeBrace => exact absurd rfl hclose
    | literal text =>
      rw [splitLexemes_cons rfl, htop]
      exact ⟨.kept (literal text) rfl :: pieces, rfl, rfl, hnested⟩
    | other c =>
      rw [splitLexemes_cons rfl, htop]
      exact ⟨.kept (other c) rfl :: pieces, rfl, rfl, hnested⟩
  | @block inner ls hinner _ _ ih =>
    obtain ⟨pieces, hls, htop, hnested⟩ :=
      ih ('}' :: (inner.flatMap text).reverse ++ '{' :: before)
    rw [splitLexemes_block (hinner.cutBlock?_closeBrace ls)]
    refine ⟨.block inner :: pieces, ?_, ?_, ?_⟩
    · rw [List.flatMap_cons, ← hls, Piece.lexemes]
      simp
    · rw [htop]
      rfl
    · rw [List.map_cons, hnested]
      rfl

/-! ## Pairs inside of a pair -/

section Factor

variable {cs : List Char}

/-- What a pair of braces of a text encloses is balanced. -/
theorem Factor.balanced_inner {ls : List Lexeme} (f : Factor ls) : Balanced f.inner :=
  balanced_of_cutBlock? f.cutBlock_eq

/-- A brace that is opened inside of a pair is closed there, and matching finds the same brace in
what is inside as in the whole text. -/
theorem Factor.exists_closing (f : Factor (ofText cs)) {front back : List Lexeme}
    (h : f.inner = front ++ openBrace :: back) : ∃ close < width f.inner,
      closingOf? (bracePairs (f.inner.flatMap text)) (width front) = some close ∧
      blockEnd? (f.inner.flatMap text) (width front) = some close ∧
      closingOf? (bracePairs cs) (width f.front + 1 + width front) =
        some (width f.front + 1 + close) := by
  obtain ⟨inner, after, hinner, rfl⟩ := (h ▸ f.balanced_inner).exists_block
  have hcut := hinner.cutBlock?_closeBrace after
  -- The brace as a lexeme of what is inside, and as one of the whole text.
  have hslice := f.ofText_inner.trans h
  have htext : ofText cs = (f.front ++ openBrace :: front) ++
      openBrace :: ((inner ++ closeBrace :: after) ++ closeBrace :: f.back) := by
    apply f.eq_append.trans
    rw [h]
    simp
  have hplace : width (f.front ++ openBrace :: front) = width f.front + 1 + width front := by
    rw [width_append, width_cons]
    exact (Nat.add_assoc _ _ _).symm
  refine ⟨width front + 1 + width inner, ?_, ?_, ?_, ?_⟩
  · rw [h, width_append, width_cons, width_append, width_cons]
    simp only [Lexeme.text, List.length_singleton]
    omega
  · rw [closingOf?_width hslice, hcut]
    rfl
  · rw [blockEnd?_width hslice, hcut]
    rfl
  · rw [← hplace, closingOf?_width htext, cutBlock?_append_of_some hcut, hplace]
    simp only [Option.map_some, Nat.add_assoc]

/-- Matching finds a pair inside of a pair exactly if it finds it in what is inside. -/
theorem Factor.closingOf?_iff (f : Factor (ofText cs)) {place close : Nat} :
    closingOf? (bracePairs (f.inner.flatMap text)) place = some close ↔
      place < width f.inner ∧ closingOf? (bracePairs cs) (width f.front + 1 + place) =
        some (width f.front + 1 + close) := by
  constructor
  · intro h
    obtain ⟨g, rfl, hclose⟩ := exists_factor_of_closingOf? h
    have hslice := f.ofText_inner.symm.trans g.eq_append
    obtain ⟨stop, hlt, hstop, -, htext⟩ := f.exists_closing hslice
    obtain rfl := Option.some.inj (hstop.symm.trans h)
    exact ⟨by omega, htext⟩
  · rintro ⟨hlt, h⟩
    obtain ⟨g, hplace, -⟩ := exists_factor_of_closingOf? h
    -- The brace stands behind the first brace of the outer pair and in front of the second one.
    have hsplit : g.front ++ openBrace :: (g.inner ++ closeBrace :: g.back) =
        (f.front ++ [openBrace]) ++ (f.inner ++ closeBrace :: f.back) := by
      rw [List.append_assoc, List.singleton_append, ← f.eq_append, ← g.eq_append]
    have houter : width (f.front ++ [openBrace]) = width f.front + 1 := by
      rw [width_append]
      rfl
    obtain ⟨front, back, hfront, hslice⟩ :=
      exists_append_of_width (by decide) hsplit (by omega) (by omega)
    obtain ⟨stop, -, hstop, -, htext⟩ := f.exists_closing hslice
    have hwidth : place = width front := by
      rw [hfront, width_append, houter] at hplace
      omega
    rw [hwidth] at h ⊢
    rw [hstop, Nat.add_left_cancel (Option.some.inj (htext.symm.trans h))]

end Factor

/-! ## Bodies -/

/-- The body between two braces is read on its own as it is read in the text. The first brace is
closed by the second one, and between them matching finds the same pairs. Every brace that counts in
the body is closed there, so taking the body apart never comes to a block without an end: what is
kept of the body is kept of all its pieces. -/
structure StandsAlone (cs : List Char) (start stop : Nat) (body : List Char) : Prop where
  exists_append : ∃ front back, cs = front ++ '{' :: (body ++ '}' :: back) ∧
    front.length = start ∧ start + 1 + body.length = stop
  closingOf_eq : closingOf? (bracePairs cs) start = some stop
  closingOf_iff : ∀ p q, start < p → p < stop → start < q → q < stop →
    (closingOf? (bracePairs cs) p = some q ↔
      closingOf? (bracePairs body) (p - (start + 1)) = some (q - (start + 1)))
  exists_closing : ∀ place ∈ openBraces body, ∃ close < body.length,
    closingOf? (bracePairs body) place = some close ∧ blockEnd? body place = some close
  openBlock_eq : openBlock? [] (ofText body) = none
  exists_pieces : ∃ pieces : List Piece, ofText body = pieces.flatMap Piece.lexemes ∧
    (split body).top = pieces.flatMap Piece.top ∧
    (split body).nested.map Nested.inner = pieces.filterMap Piece.inner?

variable {cs : List Char} {start stop : Nat}

/-- What a pair of braces encloses stands alone. -/
theorem standsAlone_of_closingOf? (h : closingOf? (bracePairs cs) start = some stop) :
    StandsAlone cs start stop ((cs.drop (start + 1)).take (stop - (start + 1))) := by
  obtain ⟨f, rfl, rfl⟩ := exists_factor_of_closingOf? h
  rw [Nat.add_sub_cancel_left, f.take_drop]
  have hlexemes := f.ofText_inner
  refine ⟨⟨_, _, f.text_eq, rfl, rfl⟩, h, ?_, ?_, ?_, ?_⟩
  · intro p q hp hpstop hq hqstop
    obtain ⟨place, rfl⟩ := Nat.exists_eq_add_of_le hp
    obtain ⟨close, rfl⟩ := Nat.exists_eq_add_of_le hq
    rw [Nat.add_sub_cancel_left, Nat.add_sub_cancel_left, f.closingOf?_iff]
    exact (and_iff_right (by omega)).symm
  · intro place hplace
    obtain ⟨front, back, heq, rfl⟩ := mem_openBraces_iff.mp hplace
    obtain ⟨close, hlt, hclosing, hend, -⟩ := f.exists_closing (hlexemes.symm.trans heq)
    exact ⟨close, hlt, hclosing, hend⟩
  · rw [hlexemes]
    apply openBlock?_eq_none
    intro front back heq
    obtain ⟨inner, after, hinner, rfl⟩ := (heq ▸ f.balanced_inner).exists_block
    rw [hinner.cutBlock?_closeBrace]
    exact Option.some_ne_none _
  · rw [split, hlexemes]
    exact f.balanced_inner.exists_pieces []

/-- The bodies of the blocks of a keyword stand alone in the text. -/
theorem standsAlone_blocks (keyword : String) (cs : List Char) :
    blocks keyword cs = (extracted keyword cs).map (blockOf keyword cs) ∧
      ∀ found ∈ extracted keyword cs,
        StandsAlone cs found.1.brace found.2 (blockOf keyword cs found).body := by
  refine ⟨blocks_eq_map_extracted keyword cs, ?_⟩
  rintro ⟨header, close⟩ hfound
  have hsorted := pairwise_headers keyword.toList cs
  obtain ⟨-, hclose, -⟩ := (mem_taken_iff hsorted fun _ _ => lt_of_closingOf?).mp hfound
  exact standsAlone_of_closingOf? hclose

/-- A block behind a stray brace, with a comment behind its brace, a block that has braces in a string
and in a comment, a string without an end, and a slash in front of its closing brace. -/
def crowdedBody : List Char :=
  Text.unlines [
    "\x7d".toList,
    "resource \"a\" \x7b # \x7d".toList,
    "tags = \x7b x = \"\\\"\x7d\" /* \x7b */ \x7d".toList,
    "y = \"\x7b".toList,
    "/\x7d".toList]

theorem standsAlone_blocks_crowdedBody :
    bracePairs crowdedBody = [(28, 48), (15, 58)] ∧
      ∃ block, blocks "resource" crowdedBody = [block] ∧ bracePairs block.body = [(12, 32)] ∧
        StandsAlone crowdedBody 15 58 block.body := by
  have hextracted : extracted "resource" crowdedBody = [(⟨2, ["a"], 15⟩, 58)] := by decide +kernel
  obtain ⟨hblocks, hstands⟩ := standsAlone_blocks "resource" crowdedBody
  rw [hextracted] at hblocks hstands
  refine ⟨by decide +kernel, _, hblocks, by decide +kernel, ?_⟩
  exact hstands _ List.mem_cons_self

end Schematic.Hcl
