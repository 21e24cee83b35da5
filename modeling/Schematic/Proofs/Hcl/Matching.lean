import Mathlib.Data.List.Nodup
import Mathlib.Data.List.Pairwise
import Schematic.Proofs.Hcl.Brace
import Schematic.Proofs.Text.Blank

/-!
# Two ways of matching braces

All closed pairs of a text are found in one pass that keeps the open braces in a stack. The end of
a single block is found without a stack, by counting from its opening brace on how many blocks are
open. Both come to the same result at every opening brace that counts. Behind such a brace the text
is read as it is read from its start on, and a block is closed where the stack is again as high as
it was in front of the block.

The pairs are found in the order of closing. As a closing brace belongs to the last brace that is
still open, a pair that is found later either encloses those before or stands behind them, so no
two pairs cross.

## Main definitions

- `openBraces` — the places of the opening braces that count
- `Uncrossed` — one pair stands in front of the other, or inside of it

## Main statements

- `pairwise_bracePairs`, `uncrossed_of_closingOf?` — how the pairs of a text lie
- `endFrom_succ` — counting the open blocks finds the brace that cutting out a block finds
- `closingOf?_bracePairs` — the two ways of matching agree
-/

namespace Schematic.Hcl

open Lexeme

variable {cs : List Char}

/-! ## How pairs lie -/

/-- A pair starts at a brace that was open before or at one behind, and it is closed behind. -/
theorem le_of_mem_pairsFrom {offset : Nat} {opened : List Nat} {ls : List Lexeme} {p : Nat × Nat}
    (h : p ∈ pairsFrom offset opened ls) : (p.1 ∈ opened ∨ offset ≤ p.1) ∧ offset ≤ p.2 := by
  fun_induction pairsFrom offset opened ls with
  | case1 => cases h
  | case2 offset opened rest ih =>
    obtain ⟨hstart, hstop⟩ := ih h
    refine ⟨?_, by omega⟩
    rcases hstart with hstart | hstart
    · exact (List.mem_cons.mp hstart).elim (fun heq => .inr (Nat.le_of_eq heq.symm)) .inl
    · exact .inr (by omega)
  | case3 offset rest ih =>
    obtain ⟨hstart, hstop⟩ := ih h
    exact ⟨hstart.imp_right (by omega), by omega⟩
  | case4 offset rest start outer ih =>
    rcases List.mem_cons.mp h with rfl | h
    · exact ⟨.inl List.mem_cons_self, Nat.le_refl _⟩
    · obtain ⟨hstart, hstop⟩ := ih h
      exact ⟨hstart.imp (List.mem_cons_of_mem _) (by omega), by omega⟩
  | case5 offset opened lexeme rest _ _ ih =>
    obtain ⟨hstart, hstop⟩ := ih h
    exact ⟨hstart.imp_right (by omega), by omega⟩

/-- Pairs are found in the order of closing, and one that is found later encloses those before or
stands behind them. The stack holds the braces in the opposite order of the text. -/
theorem pairwise_pairsFrom {offset : Nat} {opened : List Nat} {ls : List Lexeme}
    (hsorted : opened.Pairwise fun s t => t < s) (hbefore : ∀ s ∈ opened, s < offset) :
    (pairsFrom offset opened ls).Pairwise fun p q => p.2 < q.2 ∧ (q.1 < p.1 ∨ p.2 < q.1) := by
  fun_induction pairsFrom offset opened ls with
  | case1 => exact .nil
  | case2 offset opened rest ih =>
    apply ih
    · exact List.pairwise_cons.mpr ⟨hbefore, hsorted⟩
    · intro s hs
      rcases List.mem_cons.mp hs with rfl | hs
      · omega
      · exact Nat.lt_succ_of_lt (hbefore s hs)
  | case3 offset rest ih =>
    apply ih .nil
    simp
  | case4 offset rest start outer ih =>
    rw [List.pairwise_cons] at hsorted
    rw [List.forall_mem_cons] at hbefore
    refine List.pairwise_cons.mpr ⟨fun q hq => ?_, ih hsorted.2 fun s hs => ?_⟩
    · -- What is closed later was opened in front of this pair or is opened behind it.
      obtain ⟨hstart, hstop⟩ := le_of_mem_pairsFrom hq
      exact ⟨hstop, hstart.imp (hsorted.1 q.1) id⟩
    · exact Nat.lt_succ_of_lt (hbefore.2 s hs)
  | case5 offset opened lexeme rest _ _ ih =>
    apply ih hsorted
    intro s hs
    exact Nat.lt_of_lt_of_le (hbefore s hs) (Nat.le_add_right _ _)

/-- The pairs of a text are found in the order of closing, and each one encloses those before or
stands behind them. -/
theorem pairwise_bracePairs (cs : List Char) :
    (bracePairs cs).Pairwise fun p q => p.2 < q.2 ∧ (q.1 < p.1 ∨ p.2 < q.1) :=
  pairwise_pairsFrom .nil (by simp)

theorem lt_of_mem_bracePairs {start stop : Nat} (h : (start, stop) ∈ bracePairs cs) :
    start < stop := by
  cases standsAt_of_mem_pairsFrom h with
  | before hstart _ => simp at hstart
  | among f => omega

/-- No two pairs start at the same brace. -/
theorem nodup_starts (cs : List Char) : ((bracePairs cs).map Prod.fst).Nodup := by
  rw [List.Nodup, List.pairwise_map]
  refine (pairwise_bracePairs cs).imp_of_mem fun {p q} hp _ hlies heq => ?_
  have hlt := lt_of_mem_bracePairs hp
  omega

/-- Looking up a brace finds the pair that starts there. -/
theorem mem_bracePairs_iff {start stop : Nat} :
    (start, stop) ∈ bracePairs cs ↔ closingOf? (bracePairs cs) start = some stop := by
  rw [closingOf?, Option.map_eq_some_iff]
  constructor
  · intro h
    refine ⟨(start, stop), ?_, rfl⟩
    obtain ⟨found, hfound⟩ : ∃ found,
        (bracePairs cs).find? (fun p => p.1 == start) = some found := by
      rw [← Option.isSome_iff_exists, List.find?_isSome]
      exact ⟨_, h, beq_self_eq_true start⟩
    -- The pair that is looked up starts at the same brace, so it is this one.
    have hstart : found.1 = start := by simpa using List.find?_some hfound
    have hmem := List.mem_of_find?_eq_some hfound
    rw [hfound, List.inj_on_of_nodup_map (nodup_starts cs) hmem h hstart]
  · rintro ⟨found, hfound, rfl⟩
    have hstart : found.1 = start := by simpa using List.find?_some hfound
    exact hstart ▸ List.mem_of_find?_eq_some hfound

/-- One pair stands in front of the other, or inside of it. -/
def Uncrossed (p q : Nat × Nat) : Prop :=
  p.2 < q.1 ∨ q.2 < p.1 ∨ (p.1 < q.1 ∧ q.2 < p.2) ∨ (q.1 < p.1 ∧ p.2 < q.2)

instance : Std.Symm Uncrossed where
  symm p q h := by
    unfold Uncrossed at *
    omega

theorem uncrossed_of_closingOf? {start stop start' stop' : Nat}
    (h : closingOf? (bracePairs cs) start = some stop)
    (h' : closingOf? (bracePairs cs) start' = some stop') (hne : start ≠ start') :
    Uncrossed (start, stop) (start', stop') := by
  rw [← mem_bracePairs_iff] at h h'
  have hall : (bracePairs cs).Pairwise Uncrossed := by
    refine (pairwise_bracePairs cs).imp fun {p q} hlies => ?_
    unfold Uncrossed
    omega
  exact hall.forall h h' fun heq => hne (congrArg Prod.fst heq)

/-! ## Opening braces -/

/-- The places of the opening braces among lexemes that start at `offset`. -/
def openingsFrom (offset : Nat) : List Lexeme → List Nat
  | [] => []
  | openBrace :: rest => offset :: openingsFrom (offset + 1) rest
  | lexeme :: rest => openingsFrom (offset + lexeme.text.length) rest

/-- The places of the opening braces of a text outside of string literals and comments. -/
def openBraces (cs : List Char) : List Nat :=
  openingsFrom 0 (ofText cs)

theorem mem_openingsFrom_iff {offset place : Nat} {ls : List Lexeme} :
    place ∈ openingsFrom offset ls ↔
      ∃ front back, ls = front ++ openBrace :: back ∧ place = offset + width front := by
  fun_induction openingsFrom offset ls with
  | case1 => simp
  | case2 offset rest ih =>
    rw [List.mem_cons, ih]
    constructor
    · rintro (rfl | ⟨front, back, rfl, rfl⟩)
      · exact ⟨[], rest, rfl, rfl⟩
      · exact ⟨openBrace :: front, back, rfl, by simp [text, Nat.add_assoc]⟩
    · rintro ⟨front, back, heq, rfl⟩
      cases front with
      | nil => exact .inl rfl
      | cons l front =>
        obtain ⟨rfl, rfl⟩ := List.cons.inj heq
        exact .inr ⟨front, back, rfl, by simp [text, Nat.add_assoc]⟩
  | case3 offset lexeme rest hopen ih =>
    rw [ih]
    constructor
    · rintro ⟨front, back, rfl, rfl⟩
      exact ⟨lexeme :: front, back, rfl, by simp [Nat.add_assoc]⟩
    · rintro ⟨front, back, heq, rfl⟩
      cases front with
      | nil => exact absurd (List.cons.inj heq).1 hopen
      | cons l front =>
        obtain ⟨rfl, rfl⟩ := List.cons.inj heq
        exact ⟨front, back, rfl, by simp [Nat.add_assoc]⟩

theorem mem_openBraces_iff {place : Nat} : place ∈ openBraces cs ↔
    ∃ front back, ofText cs = front ++ openBrace :: back ∧ place = width front := by
  simp [openBraces, mem_openingsFrom_iff]

/-! ## Counting open blocks -/

/-- Counting how many blocks are open stops at the brace that cutting out a block stops at. -/
theorem endFrom_succ (offset depth : Nat) (ls : List Lexeme) :
    endFrom offset (depth + 1) ls =
      (cutBlock? depth ls).map fun found => offset + width found.1 := by
  induction ls generalizing offset depth with
  | nil => rfl
  | cons l ls ih =>
    by_cases hopen : l = openBrace
    · subst hopen
      have hdepth : (depth : Int) + 1 = (depth + 1 : Nat) := by omega
      rw [endFrom, cutBlock?, hdepth, ih, Option.map_map]
      congr 1
      funext found
      simp [text, Nat.add_assoc]
    · by_cases hclose : l = closeBrace
      · subst hclose
        cases depth with
        | zero => simp [endFrom, cutBlock?]
        | succ depth =>
          have hdepth : ((depth + 1 : Nat) : Int) + 1 - 1 = depth + 1 := by omega
          rw [endFrom, hdepth, if_neg (by omega), cutBlock?, ih, Option.map_map]
          congr 1
          funext found
          simp [text, Nat.add_assoc]
      · rw [cutBlock?_cons hopen hclose, endFrom, ih, Option.map_map]
        · congr 1
          funext found
          simp [Nat.add_assoc]
        · exact hopen
        · exact hclose

/-- The end of the block behind an opening brace. -/
theorem blockEnd?_width {front back : List Lexeme} (h : ofText cs = front ++ openBrace :: back) :
    blockEnd? cs (width front) =
      (cutBlock? 0 back).map fun found => width front + 1 + width found.1 := by
  have hdrop : cs.drop (width front) = (openBrace :: back).flatMap text := by
    conv => lhs; rw [← flatMap_text_ofText cs, h, List.flatMap_append]
    exact List.drop_left
  rw [blockEnd?, hdrop, ofText_back h, endFrom]
  exact endFrom_succ _ 0 back

/-- The one-pass matching at an opening brace. -/
theorem closingOf?_width {front back : List Lexeme} (h : ofText cs = front ++ openBrace :: back) :
    closingOf? (bracePairs cs) (width front) =
      (cutBlock? 0 back).map fun found => width front + 1 + width found.1 := by
  cases hcut : cutBlock? 0 back with
  | some found =>
    obtain ⟨inner, after⟩ := found
    have hback := append_of_cutBlock? hcut
    exact closingOf?_eq_some ⟨front, inner, after, by rw [hback, h], by rw [hback, hcut]⟩
  | none =>
    -- A pair that starts at this brace would enclose a block that can be cut out.
    rw [Option.map_none, Option.eq_none_iff_forall_ne_some]
    intro stop hstop
    obtain ⟨f, hwidth, -⟩ := exists_factor_of_closingOf? hstop
    have hne : ∀ l ∈ front ++ openBrace :: back, l.text ≠ [] := by
      rw [← h]
      exact fun l => text_ne_nil_of_mem_ofText
    obtain ⟨-, hbehind⟩ := append_left_inj_of_width_eq hne (h.symm.trans f.eq_append) hwidth
    have hblock := f.cutBlock_eq
    rw [← (List.cons.inj hbehind).2, hcut] at hblock
    cases hblock

/-! ## Agreement -/

/-- Every pair starts at an opening brace that counts, no two at the same one, and at each of these
braces the one-pass matching finds what counting from there on finds. -/
theorem closingOf?_bracePairs (cs : List Char) :
    (bracePairs cs).map Prod.fst ⊆ openBraces cs ∧ ((bracePairs cs).map Prod.fst).Nodup ∧
      ∀ start ∈ openBraces cs, closingOf? (bracePairs cs) start = blockEnd? cs start := by
  refine ⟨?_, nodup_starts cs, ?_⟩
  · intro start hstart
    obtain ⟨⟨_, stop⟩, hmem, rfl⟩ := List.mem_map.mp hstart
    obtain ⟨f, hfront, -⟩ := exists_factor_of_closingOf? (mem_bracePairs_iff.mp hmem)
    exact mem_openBraces_iff.mpr ⟨f.front, _, f.eq_append, hfront⟩
  · intro start hstart
    obtain ⟨front, back, htext, rfl⟩ := mem_openBraces_iff.mp hstart
    rw [closingOf?_width htext, blockEnd?_width htext]

/-- A text with a stray closing brace, braces in a string, in one without an end and in comments, a
block that is never closed and one within it. -/
def tangledBraces : List Char :=
  Text.unlines [
    "\x7d a \x7b".toList,
    "b = \"\x7b\\\"\x7d\" # \x7d".toList,
    "c = \"\x7d".toList,
    "/* \x7b */ d \x7b \x7b\x7d \x7d".toList]

theorem closingOf?_bracePairs_tangledBraces :
    openBraces tangledBraces = [4, 38, 40] ∧
      closingOf? (bracePairs tangledBraces) 4 = blockEnd? tangledBraces 4 ∧
      blockEnd? tangledBraces 4 = none ∧
      closingOf? (bracePairs tangledBraces) 38 = blockEnd? tangledBraces 38 ∧
      blockEnd? tangledBraces 38 = some 43 := by
  have hopen : openBraces tangledBraces = [4, 38, 40] := by decide +kernel
  have hagree := (closingOf?_bracePairs tangledBraces).2.2
  refine ⟨hopen, hagree 4 ?_, by decide +kernel, hagree 38 ?_, by decide +kernel⟩
  · simp [hopen]
  · simp [hopen]

end Schematic.Hcl
