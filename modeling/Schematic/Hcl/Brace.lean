import Schematic.Hcl.Lexeme

/-!
# Matching braces

Which closing brace belongs to which opening brace. Only braces that are lexemes of their own
count, so braces inside string literals and comments are passed over. A closing brace with nothing
open is passed over too, and an opening brace may stay open.

## Main definitions

- `pairsFrom`, `bracePairs` — all closed pairs of a text, by position
- `endFrom`, `blockEnd?` — the brace that closes the one at a position
- `cutBlock?` — the lexemes inside a block and those behind it
-/

namespace Schematic.Hcl

open Lexeme

/-- The closed pairs of lexemes that start at `offset`, in the order of closing. `opened` holds
the positions of the braces that are open, the innermost first. -/
def pairsFrom (offset : Nat) (opened : List Nat) : List Lexeme → List (Nat × Nat)
  | [] => []
  | openBrace :: rest => pairsFrom (offset + 1) (offset :: opened) rest
  | closeBrace :: rest =>
    match opened with
    -- A closing brace without an opening one is passed over.
    | [] => pairsFrom (offset + 1) [] rest
    | start :: outer => (start, offset) :: pairsFrom (offset + 1) outer rest
  | lexeme :: rest => pairsFrom (offset + lexeme.text.length) opened rest

/-- The closed brace pairs of a text, in the order of closing. -/
def bracePairs (cs : List Char) : List (Nat × Nat) :=
  pairsFrom 0 [] (Lexeme.ofText cs)

/-- The closing brace of the pair that opens at a position. -/
def closingOf? (pairs : List (Nat × Nat)) (start : Nat) : Option Nat :=
  (pairs.find? fun pair => pair.1 == start).map Prod.snd

/-- The position where the depth of open braces comes back to zero, for lexemes that start at
`offset` and depth `depth`. -/
def endFrom (offset : Nat) (depth : Int) : List Lexeme → Option Nat
  | [] => none
  | openBrace :: rest => endFrom (offset + 1) (depth + 1) rest
  | closeBrace :: rest =>
    -- The depth may fall below zero before the first brace opens.
    if depth - 1 = 0 then some offset else endFrom (offset + 1) (depth - 1) rest
  | lexeme :: rest => endFrom (offset + lexeme.text.length) depth rest

/-- The position of the brace that closes the block opening at `start`, reading the text from
there on. -/
def blockEnd? (cs : List Char) (start : Nat) : Option Nat :=
  endFrom start 0 (Lexeme.ofText (cs.drop start))

/-! ## Cutting a block out of the lexemes -/

/-- The lexemes up to the brace that closes `depth` further blocks and the one that is open, and
the lexemes behind that brace. -/
def cutBlock? (depth : Nat) : List Lexeme → Option (List Lexeme × List Lexeme)
  | [] => none
  | openBrace :: rest =>
    (cutBlock? (depth + 1) rest).map fun (inner, after) => (openBrace :: inner, after)
  | closeBrace :: rest =>
    match depth with
    -- Nothing is open any more but the block that is cut out.
    | 0 => some ([], rest)
    | depth + 1 => (cutBlock? depth rest).map fun (inner, after) => (closeBrace :: inner, after)
  | lexeme :: rest => (cutBlock? depth rest).map fun (inner, after) => (lexeme :: inner, after)

/-- A block, its closing brace and what is behind it are all that was there. -/
theorem append_of_cutBlock? {depth : Nat} {ls inner after : List Lexeme}
    (h : cutBlock? depth ls = some (inner, after)) : inner ++ closeBrace :: after = ls := by
  fun_induction cutBlock? depth ls generalizing inner after with
  | case1 => simp at h
  | case2 depth rest ih =>
    obtain ⟨⟨i, a⟩, hr, he⟩ := Option.map_eq_some_iff.1 h
    simp only [Prod.mk.injEq] at he
    simp [← he.1, ← he.2, ih hr]
  | case3 rest => simp_all
  | case4 rest depth ih =>
    obtain ⟨⟨i, a⟩, hr, he⟩ := Option.map_eq_some_iff.1 h
    simp only [Prod.mk.injEq] at he
    simp [← he.1, ← he.2, ih hr]
  | case5 depth lexeme rest _ _ ih =>
    obtain ⟨⟨i, a⟩, hr, he⟩ := Option.map_eq_some_iff.1 h
    simp only [Prod.mk.injEq] at he
    simp [← he.1, ← he.2, ih hr]

theorem length_lt_of_cutBlock? {depth : Nat} {ls inner after : List Lexeme}
    (h : cutBlock? depth ls = some (inner, after)) : after.length < ls.length := by
  rw [← append_of_cutBlock? h]
  simp
  omega

end Schematic.Hcl
