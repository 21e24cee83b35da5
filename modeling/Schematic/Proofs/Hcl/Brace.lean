import Schematic.Hcl.Block
import Schematic.Proofs.Hcl.Lexeme

/-!
# What stands between two braces

A closed pair of braces cuts a text into what is in front of it, what is inside and what is
behind. The inside is what cutting out a block finds, and as both braces are lexemes, its lexemes
are those of the whole text.

## Main definitions

- `width` — how many characters lexemes have
- `Factor` — a closed pair of braces among lexemes, with what is inside and around it

## Main statements

- `standsAt_of_mem_pairsFrom` — where the pairs stand that matching finds
- `closingOf?_eq_some` — matching finds every closed pair of a text
- `exists_factor_of_mem_blocks` — a block and its body in the lexemes of the text
-/

namespace Schematic.Hcl

open Lexeme

/-- How many characters lexemes have. -/
def width (ls : List Lexeme) : Nat :=
  (ls.flatMap text).length

@[simp] theorem width_nil : width [] = 0 := rfl

@[simp] theorem width_cons (l : Lexeme) (ls : List Lexeme) :
    width (l :: ls) = l.text.length + width ls := by
  simp [width]

@[simp] theorem width_append (ls ms : List Lexeme) : width (ls ++ ms) = width ls + width ms := by
  simp [width]

theorem width_ofText (cs : List Char) : width (ofText cs) = cs.length := by
  rw [width, flatMap_text_ofText]

/-! ## Lexemes that are no braces -/

theorem pairsFrom_cons {l : Lexeme} (hopen : l ≠ openBrace) (hclose : l ≠ closeBrace)
    (offset : Nat) (opened : List Nat) (ls : List Lexeme) :
    pairsFrom offset opened (l :: ls) = pairsFrom (offset + l.text.length) opened ls := by
  rw [pairsFrom]
  · exact hopen
  · exact hclose

theorem cutBlock?_cons {l : Lexeme} (hopen : l ≠ openBrace) (hclose : l ≠ closeBrace)
    (depth : Nat) (ls : List Lexeme) :
    cutBlock? depth (l :: ls) =
      (cutBlock? depth ls).map fun (inner, back) => (l :: inner, back) := by
  rw [cutBlock?]
  · exact hopen
  · exact hclose

/-! ## Cutting out a block -/

/-- A block that goes on with a lexeme is what is cut out behind the lexeme, with it in front. -/
theorem exists_of_map_cons {cut : Option (List Lexeme × List Lexeme)} {l : Lexeme}
    {inner back : List Lexeme}
    (h : cut.map (fun (inner, back) => (l :: inner, back)) = some (inner, back)) :
    ∃ more, cut = some (more, back) ∧ inner = l :: more := by
  obtain ⟨⟨more, _⟩, hcut, heq⟩ := Option.map_eq_some_iff.mp h
  obtain ⟨rfl, rfl⟩ := Prod.mk.inj heq
  exact ⟨more, hcut, rfl⟩

/-- A block that is closed stays the same, whatever follows. -/
theorem cutBlock?_append_of_some {depth : Nat} {ls inner after : List Lexeme}
    (h : cutBlock? depth ls = some (inner, after)) (more : List Lexeme) :
    cutBlock? depth (ls ++ more) = some (inner, after ++ more) := by
  fun_induction cutBlock? depth ls generalizing inner after with
  | case1 => cases h
  | case2 depth rest ih =>
    obtain ⟨cut, hcut, rfl⟩ := exists_of_map_cons h
    rw [List.cons_append, cutBlock?, ih hcut, Option.map_some]
  | case3 rest =>
    obtain ⟨rfl, rfl⟩ := Prod.mk.inj (Option.some.inj h)
    rfl
  | case4 rest depth ih =>
    obtain ⟨cut, hcut, rfl⟩ := exists_of_map_cons h
    rw [List.cons_append, cutBlock?, ih hcut, Option.map_some]
  | case5 depth l rest hopen hclose ih =>
    obtain ⟨cut, hcut, rfl⟩ := exists_of_map_cons h
    rw [List.cons_append, cutBlock?_cons hopen hclose, ih hcut, Option.map_some]

/-! ## Pairs -/

/-- A closed pair of braces among lexemes: what is in front of it, what is inside, which cutting
out the block finds, and what is behind. -/
structure Factor (ls : List Lexeme) where
  front : List Lexeme
  inner : List Lexeme
  back : List Lexeme
  eq_append : ls = front ++ openBrace :: (inner ++ closeBrace :: back)
  cutBlock_eq : cutBlock? 0 (inner ++ closeBrace :: back) = some (inner, back)

/-- A pair among lexemes is one among more of them. -/
def Factor.cons (l : Lexeme) {ls : List Lexeme} (f : Factor ls) : Factor (l :: ls) where
  front := l :: f.front
  inner := f.inner
  back := f.back
  eq_append := by rw [List.cons_append, ← f.eq_append]
  cutBlock_eq := f.cutBlock_eq

/-- The pair that a block in front of the lexemes forms. -/
def Factor.ofCut {ls inner back : List Lexeme} (h : cutBlock? 0 ls = some (inner, back)) :
    Factor (openBrace :: ls) where
  front := []
  inner := inner
  back := back
  eq_append := by rw [append_of_cutBlock? h, List.nil_append]
  cutBlock_eq := by rw [append_of_cutBlock? h, h]

/-- Where a pair starts and stops: at a brace that was open before, in the order of the open
braces, or at two braces among the lexemes. The first kind stops where the block of as many
further blocks is cut out. -/
inductive StandsAt (offset : Nat) (opened : List Nat) (ls : List Lexeme) : Nat → Nat → Prop where
  | before {depth start : Nat} {inner back : List Lexeme} (hstart : opened[depth]? = some start)
      (hcut : cutBlock? depth ls = some (inner, back)) :
      StandsAt offset opened ls start (offset + width inner)
  | among (f : Factor ls) :
      StandsAt offset opened ls (offset + width f.front)
        (offset + width f.front + 1 + width f.inner)

/-- Every pair that is found stands at such a place. -/
theorem standsAt_of_mem_pairsFrom {offset : Nat} {opened : List Nat} {ls : List Lexeme}
    {start stop : Nat} (h : (start, stop) ∈ pairsFrom offset opened ls) :
    StandsAt offset opened ls start stop := by
  induction ls generalizing offset opened with
  | nil => simp [pairsFrom] at h
  | cons l ls ih =>
    by_cases hopen : l = openBrace
    · subst hopen
      rw [pairsFrom] at h
      cases ih h with
      | @before depth _ inner back hstart hcut =>
        cases depth with
        | zero =>
          -- The brace that has just been opened is closed by the block behind it.
          obtain rfl := Option.some.inj hstart
          simpa [Factor.ofCut, text] using
            @StandsAt.among offset opened _ (Factor.ofCut hcut)
        | succ depth =>
          -- A brace that was open before is closed behind the whole block.
          have hcut' : cutBlock? depth (openBrace :: ls) = some (openBrace :: inner, back) := by
            rw [cutBlock?, hcut, Option.map_some]
          simpa [text, Nat.add_assoc] using
            @StandsAt.before offset opened _ depth _ _ _ (by simpa using hstart) hcut'
      | among f =>
        simpa [Factor.cons, text, Nat.add_assoc] using
          @StandsAt.among offset opened _ (f.cons openBrace)
    · by_cases hclose : l = closeBrace
      · subst hclose
        cases opened with
        | nil =>
          rw [pairsFrom] at h
          cases ih h with
          | before hstart hcut => simp at hstart
          | among f =>
            simpa [Factor.cons, text, Nat.add_assoc] using
              @StandsAt.among offset [] _ (f.cons closeBrace)
        | cons first opened =>
          rw [pairsFrom] at h
          rcases List.mem_cons.mp h with h | h
          -- This brace closes the one that was opened last.
          · obtain ⟨rfl, rfl⟩ := Prod.mk.inj h
            exact @StandsAt.before _ _ _ 0 _ [] ls rfl rfl
          · cases ih h with
            | @before depth _ inner back hstart hcut =>
              have hcut' : cutBlock? (depth + 1) (closeBrace :: ls) =
                  some (closeBrace :: inner, back) := by
                rw [cutBlock?, hcut, Option.map_some]
              simpa [text, Nat.add_assoc] using
                @StandsAt.before offset (first :: opened) _ (depth + 1) _ _ _
                  (by simpa using hstart) hcut'
            | among f =>
              simpa [Factor.cons, text, Nat.add_assoc] using
                @StandsAt.among offset (first :: opened) _ (f.cons closeBrace)
      · rw [pairsFrom_cons hopen hclose] at h
        cases ih h with
        | @before depth _ inner back hstart hcut =>
          have hcut' : cutBlock? depth (l :: ls) = some (l :: inner, back) := by
            rw [cutBlock?_cons hopen hclose, hcut, Option.map_some]
          simpa [Nat.add_assoc] using @StandsAt.before offset opened _ depth _ _ _ hstart hcut'
        | among f =>
          simpa [Factor.cons, Nat.add_assoc] using
            @StandsAt.among offset opened _ (f.cons l)

/-- Every pair that stands at such a place is found. -/
theorem mem_pairsFrom_of_cutBlock? {offset depth start : Nat} {opened : List Nat}
    {ls inner back : List Lexeme} (hstart : opened[depth]? = some start)
    (hcut : cutBlock? depth ls = some (inner, back)) :
    (start, offset + width inner) ∈ pairsFrom offset opened ls := by
  induction ls generalizing offset depth opened inner with
  | nil => simp [cutBlock?] at hcut
  | cons l ls ih =>
    by_cases hopen : l = openBrace
    · subst hopen
      rw [cutBlock?] at hcut
      obtain ⟨more, hrest, rfl⟩ := exists_of_map_cons hcut
      have := @ih (offset + 1) (depth + 1) (offset :: opened) _ (by simpa using hstart) hrest
      simpa [pairsFrom, text, Nat.add_assoc] using this
    · by_cases hclose : l = closeBrace
      · subst hclose
        obtain ⟨first, outer, rfl⟩ : ∃ first outer, opened = first :: outer := by
          cases opened with
          | nil => simp at hstart
          | cons first outer => exact ⟨first, outer, rfl⟩
        rw [pairsFrom]
        cases depth with
        | zero =>
          obtain rfl := Option.some.inj hstart
          obtain ⟨rfl, rfl⟩ := Prod.mk.inj (Option.some.inj hcut)
          exact List.mem_cons_self
        | succ depth =>
          rw [cutBlock?] at hcut
          obtain ⟨more, hrest, rfl⟩ := exists_of_map_cons hcut
          have := @ih (offset + 1) depth outer _ (by simpa using hstart) hrest
          refine List.mem_cons_of_mem _ ?_
          simpa [text, Nat.add_assoc] using this
      · rw [cutBlock?_cons hopen hclose] at hcut
        obtain ⟨more, hrest, rfl⟩ := exists_of_map_cons hcut
        have := @ih (offset + l.text.length) depth opened _ hstart hrest
        simpa [pairsFrom_cons hopen hclose, Nat.add_assoc] using this

theorem mem_pairsFrom_of_factor (offset : Nat) (opened : List Nat) {ls : List Lexeme}
    (f : Factor ls) :
    (offset + width f.front, offset + width f.front + 1 + width f.inner) ∈
      pairsFrom offset opened ls := by
  obtain ⟨front, inner, back, rfl, hcut⟩ := f
  show (offset + width front, offset + width front + 1 + width inner) ∈ _
  induction front generalizing offset opened with
  | nil =>
    rw [List.nil_append, pairsFrom]
    exact @mem_pairsFrom_of_cutBlock? _ 0 _ _ _ _ _ rfl hcut
  | cons l front ih =>
    rw [List.cons_append, width_cons, ← Nat.add_assoc]
    by_cases hopen : l = openBrace
    · subst hopen
      exact ih (offset + 1) (offset :: opened)
    · by_cases hclose : l = closeBrace
      · subst hclose
        cases opened with
        | nil => exact ih (offset + 1) []
        | cons first outer => exact List.mem_cons_of_mem _ (ih (offset + 1) outer)
      · rw [pairsFrom_cons hopen hclose]
        exact ih (offset + l.text.length) opened

/-! ## Pairs of a text -/

/-- No lexeme of a text is without characters. -/
theorem text_ne_nil_of_mem_ofText {cs : List Char} {l : Lexeme} (h : l ∈ ofText cs) :
    l.text ≠ [] := by
  fun_induction ofText cs with
  | case1 => cases h
  | case2 c rest ih =>
    rcases List.mem_cons.mp h with rfl | h
    · obtain ⟨ds, hds⟩ := exists_text_next c rest
      simp [hds]
    · exact ih h

/-- Where a pair opens decides what is in front of it. -/
theorem append_left_inj_of_width_eq {front front' back back' : List Lexeme}
    (hne : ∀ l ∈ front ++ back, l.text ≠ []) (h : front ++ back = front' ++ back')
    (hwidth : width front = width front') : front = front' ∧ back = back' := by
  have hnil {ls : List Lexeme} (hls : ∀ l ∈ ls, l.text ≠ []) (hzero : width ls = 0) :
      ls = [] := by
    cases ls with
    | nil => rfl
    | cons l ls =>
      rw [width_cons, Nat.add_eq_zero_iff, List.length_eq_zero_iff] at hzero
      exact absurd hzero.1 (hls l List.mem_cons_self)
  -- What one front has more than the other has no characters, so it is nothing.
  rcases List.append_eq_append_iff.mp h with ⟨middle, rfl, rfl⟩ | ⟨middle, rfl, rfl⟩
  · rw [width_append] at hwidth
    obtain rfl := hnil (fun l hl => hne l (by simp [hl])) (show width middle = 0 by omega)
    simp
  · rw [width_append] at hwidth
    obtain rfl := hnil (fun l hl => hne l (by simp [hl])) (show width middle = 0 by omega)
    simp

/-- A closed pair of braces of a text and the lexemes in front, inside and behind. -/
theorem exists_factor_of_closingOf? {cs : List Char} {start stop : Nat}
    (h : closingOf? (bracePairs cs) start = some stop) :
    ∃ f : Factor (ofText cs), start = width f.front ∧ stop = start + 1 + width f.inner := by
  obtain ⟨⟨s, t⟩, hfind, rfl⟩ := Option.map_eq_some_iff.mp h
  have hs : s = start := by simpa using List.find?_some hfind
  have hmem := List.mem_of_find?_eq_some hfind
  subst hs
  cases standsAt_of_mem_pairsFrom hmem with
  | before hstart hcut => simp at hstart
  | among f => exact ⟨f, by simp, by simp⟩

/-- Matching finds every closed pair of a text. -/
theorem closingOf?_eq_some {cs : List Char} (f : Factor (ofText cs)) :
    closingOf? (bracePairs cs) (width f.front) = some (width f.front + 1 + width f.inner) := by
  have hmem := mem_pairsFrom_of_factor 0 [] f
  rw [Nat.zero_add] at hmem
  obtain ⟨stop, hstop⟩ : ∃ stop, closingOf? (bracePairs cs) (width f.front) = some stop := by
    rw [← Option.isSome_iff_exists, closingOf?, Option.isSome_map, List.find?_isSome]
    exact ⟨_, hmem, by simp⟩
  -- Both pairs open at the same brace, so they enclose the same.
  obtain ⟨g, hfront, rfl⟩ := exists_factor_of_closingOf? hstop
  have hne : ∀ l ∈ f.front ++ openBrace :: (f.inner ++ closeBrace :: f.back), l.text ≠ [] := by
    rw [← f.eq_append]
    exact fun l => text_ne_nil_of_mem_ofText
  have heq := append_left_inj_of_width_eq hne (f.eq_append.symm.trans g.eq_append) hfront
  have hcut := f.cutBlock_eq
  rw [(List.cons.inj heq.2).2, g.cutBlock_eq] at hcut
  obtain ⟨hinner, -⟩ := Prod.mk.inj (Option.some.inj hcut)
  rw [hstop, hinner]

/-! ## Blocks -/

/-- What a pair of braces encloses is read as it is in the whole text. -/
theorem Factor.ofText_inner {cs : List Char} (f : Factor (ofText cs)) :
    ofText (f.inner.flatMap text) = f.inner := by
  have h := f.eq_append
  rw [List.append_cons, ← List.append_assoc] at h
  exact ofText_factor h

/-- A pair of braces and what it encloses, as characters of the text. -/
theorem Factor.text_eq {cs : List Char} (f : Factor (ofText cs)) :
    cs = f.front.flatMap text ++ '{' :: (f.inner.flatMap text ++ '}' :: f.back.flatMap text) := by
  conv => lhs; rw [← flatMap_text_ofText cs, f.eq_append]
  simp [text]

theorem Factor.take_drop {cs : List Char} (f : Factor (ofText cs)) :
    (cs.drop (width f.front + 1)).take (width f.inner) = f.inner.flatMap text := by
  have h := congrArg (fun t => (t.drop (width f.front + 1)).take (width f.inner)) f.text_eq
  rw [List.append_cons] at h
  rw [h, List.drop_left' (by rw [List.length_append]; rfl)]
  exact List.take_left' rfl

/-- The body of a block is what a pair of braces of the text encloses. -/
theorem exists_factor_of_mem_closedBlocks {keyword : String} {cs : List Char} {covered : Nat}
    {headers : List Header} {block : Block}
    (h : block ∈ closedBlocks keyword cs (bracePairs cs) covered headers) :
    ∃ f : Factor (ofText cs), block.body = f.inner.flatMap text := by
  induction headers generalizing covered with
  | nil => simp [closedBlocks] at h
  | cons header headers ih =>
    rw [closedBlocks] at h
    split at h
    · exact ih h
    · split at h
      · exact ih h
      · next close hclose =>
        rcases List.mem_cons.mp h with rfl | h
        · obtain ⟨f, hstart, hstop⟩ := exists_factor_of_closingOf? hclose
          refine ⟨f, ?_⟩
          have hlength : close - (header.brace + 1) = width f.inner := by
            rw [hstop, Nat.add_sub_cancel_left]
          show (cs.drop (header.brace + 1)).take (close - (header.brace + 1)) = _
          rw [hlength, hstart, f.take_drop]
        · exact ih h

theorem exists_factor_of_mem_blocks {keyword : String} {cs : List Char} {block : Block}
    (h : block ∈ blocks keyword cs) : ∃ f : Factor (ofText cs), block.body = f.inner.flatMap text :=
  exists_factor_of_mem_closedBlocks h

end Schematic.Hcl
