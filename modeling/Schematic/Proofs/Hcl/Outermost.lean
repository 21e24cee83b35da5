import Schematic.Proofs.Hcl.Extracted
import Schematic.Proofs.Hcl.Matching
import Schematic.Proofs.Hcl.Sections

/-!
# Which blocks are top-level

Going through the headers of a keyword keeps the end of the block before, and that is all it knows
of what is around a header. So it passes over a block within another one of the same keyword, and
takes a block that stands within the braces of anything else. As pairs of braces do not cross, the
blocks that are taken are the outermost ones of their keyword, and their labels are the names that
the tree of a configuration has entries for.

## Main definitions

- `extracted` — the headers that are taken, with the places where their blocks are closed
- `IsOutermost` — a closed block that lies within no other one of its keyword
- `IsNested` — a block that lies within a closed pair of braces

## Main statements

- `brace_lt_offset` — headers stand on different lines
- `mem_extracted_iff` — the blocks that are taken are the outermost ones
- `blocks_and_entries_outermost` — the blocks of a text and the entries of its tree
- `not_forall_not_isNested` — a block that is taken may be nested
-/

namespace Schematic.Hcl

variable {keyword cs : List Char} {header outer : Header} {close stop : Nat}

/-! ## Headers and lines -/

/-- A header ends in front of the line of the next one. -/
theorem brace_lt_offset (hkeyword : IsKeyword keyword) (h : StandsIn keyword cs header)
    {later : Header} (hlater : StandsIn keyword cs later) (hlt : header.offset < later.offset) :
    header.brace < later.offset := by
  obtain ⟨front, heading, back, labels, rfl, -, hheading, rfl⟩ := h
  obtain ⟨front', heading', back', labels', htext, hstarts, -, rfl⟩ := hlater
  rcases hstarts with rfl | ⟨lines, rfl⟩
  · exact absurd hlt (Nat.not_lt_zero _)
  · have hline : '\n' ∉ heading ++ ['{'] := by simp [hheading.feed_not_mem hkeyword]
    rw [List.append_cons heading, List.append_assoc lines, ← List.append_assoc front] at htext
    simp only [List.length_append, List.length_singleton] at hlt ⊢
    -- The line feed in front of the later header stands behind the heading and the brace.
    rcases List.append_eq_append_iff.mp htext with ⟨more, rfl, -⟩ | ⟨more, hfront, hmore⟩
    · simp only [List.length_append, List.length_singleton]
      omega
    · cases more with
      | nil =>
        have hlength := congrArg List.length hfront
        simp only [List.length_append, List.length_singleton, List.length_nil] at hlength
        omega
      | cons c more =>
        obtain ⟨rfl, -⟩ := List.cons.inj hmore
        rcases List.append_eq_append_iff.mp hfront with ⟨inner, rfl, hinner⟩ | ⟨inner, rfl, hinner⟩
        · exact absurd (by rw [hinner]; simp) hline
        · cases inner with
          | nil =>
            rw [List.nil_append] at hinner
            exact absurd (by rw [← hinner]; exact List.mem_cons_self) hline
          | cons d inner =>
            simp only [List.length_append, List.length_cons] at hlt
            omega

/-! ## Outermost blocks -/

/-- The headers of a keyword that are taken, with the places where their blocks are closed. -/
def extracted (keyword : String) (cs : List Char) : List (Header × Nat) :=
  taken (bracePairs cs) 0 (headers keyword.toList cs)

theorem blocks_eq_map_extracted (keyword : String) (cs : List Char) :
    blocks keyword cs = (extracted keyword cs).map (blockOf keyword cs) :=
  closedBlocks_eq_map keyword cs _ _ _

/-- A header with the place where its block is closed. -/
def IsClosed (keyword cs : List Char) (found : Header × Nat) : Prop :=
  StandsIn keyword cs found.1 ∧ closingOf? (bracePairs cs) found.1.brace = some found.2

/-- A block that is closed and lies within no other one of the same keyword. -/
structure IsOutermost (keyword cs : List Char) (found : Header × Nat) : Prop where
  isClosed : IsClosed keyword cs found
  not_within : ∀ outer, IsClosed keyword cs outer →
    ¬(outer.1.brace < found.1.offset ∧ found.2 < outer.2)

/-- A block that lies within a closed pair of braces, whatever stands in front of them. -/
def IsNested (cs : List Char) (found : Header × Nat) : Prop :=
  ∃ start stop, closingOf? (bracePairs cs) start = some stop ∧ start < found.1.offset ∧
    found.2 < stop

section Keyword

variable {keyword : String} (hkeyword : IsKeyword keyword.toList) {found : Header × Nat}

include hkeyword

theorem mem_extracted_iff_le : found ∈ extracted keyword cs ↔ IsClosed keyword.toList cs found ∧
    ∀ p ∈ extracted keyword cs, p.1.offset < found.1.offset → p.2 ≤ found.1.brace := by
  have hsorted := pairwise_headers keyword.toList cs
  rw [extracted, mem_taken_iff hsorted fun _ _ => lt_of_closingOf?, mem_headers_iff hkeyword,
    IsClosed, and_assoc]
  simp

/-- Two closed blocks lie one behind the other, or the later one lies within the other. -/
theorem lt_offset_or_within {first : Header × Nat} (hfirst : IsClosed keyword.toList cs first)
    (hfound : IsClosed keyword.toList cs found) (hlt : first.1.offset < found.1.offset) :
    first.2 < found.1.brace ∨ (first.1.brace < found.1.offset ∧ found.2 < first.2) := by
  have hline := brace_lt_offset hkeyword hfirst.1 hfound.1 hlt
  have hbrace := hfound.1.offset_le
  have hclose := lt_of_closingOf? hfound.2
  have huncrossed := uncrossed_of_closingOf? hfirst.2 hfound.2 (by omega)
  unfold Uncrossed at huncrossed
  omega

/-- Every closed block is taken or lies within one that is. -/
theorem exists_extracted_around (h : IsClosed keyword.toList cs found) :
    ∃ p ∈ extracted keyword cs, p.1.offset ≤ found.1.offset ∧ found.2 ≤ p.2 := by
  by_cases hmem : found ∈ extracted keyword cs
  · exact ⟨found, hmem, Nat.le_refl _, Nat.le_refl _⟩
  · -- A header that is passed over stands in front of the end of a block that is taken.
    rw [mem_extracted_iff_le hkeyword, not_and] at hmem
    have hcovered := hmem h
    push Not at hcovered
    obtain ⟨p, hp, hlt, hend⟩ := hcovered
    have hclosed := ((mem_extracted_iff_le hkeyword).mp hp).1
    rcases lt_offset_or_within hkeyword hclosed h hlt with hbefore | ⟨-, hwithin⟩
    · omega
    · exact ⟨p, hp, Nat.le_of_lt hlt, Nat.le_of_lt hwithin⟩

/-- The blocks that are taken are the outermost ones of their keyword. -/
theorem mem_extracted_iff : found ∈ extracted keyword cs ↔ IsOutermost keyword.toList cs found := by
  constructor
  · intro h
    obtain ⟨hclosed, hbefore⟩ := (mem_extracted_iff_le hkeyword).mp h
    refine ⟨hclosed, fun outer houter hwithin => ?_⟩
    -- Around the enclosing block one is taken, and this one ends in front of the block.
    obtain ⟨p, hp, hoffset, hstop⟩ := exists_extracted_around hkeyword houter
    have hline := houter.1.offset_le
    have hend := hbefore p hp (by omega)
    have hclose := lt_of_closingOf? hclosed.2
    omega
  · rintro ⟨hclosed, hnot⟩
    refine (mem_extracted_iff_le hkeyword).mpr ⟨hclosed, fun p hp hlt => ?_⟩
    have hpclosed := ((mem_extracted_iff_le hkeyword).mp hp).1
    rcases lt_offset_or_within hkeyword hpclosed hclosed hlt with hbefore | hwithin
    · exact Nat.le_of_lt hbefore
    · exact absurd hwithin (hnot p hpclosed)

end Keyword

/-! ## The blocks of a text and the entries of its tree -/

/-- The blocks of a keyword are the outermost ones of it, and the tree of a configuration has
entries for the labels of just these blocks. So a block in the braces of another keyword is a block
of the text and has an entry, unless one of its own keyword is around it. -/
theorem blocks_and_entries_outermost (cs : List Char) :
    (∀ keyword : String, IsKeyword keyword.toList →
      blocks keyword cs = (extracted keyword cs).map (blockOf keyword cs) ∧
      ∀ found, found ∈ extracted keyword cs ↔ IsOutermost keyword.toList cs found) ∧
    ∀ tree, configuration cs = .ok tree → ∀ s ∈ sections, ∀ address : List String,
      address.length = s.depth →
        (((Value.map tree).path (s.keyword :: address)).isMap = true ↔
          ∃ found, IsOutermost s.keyword.toList cs found ∧ address <+: found.1.labels) := by
  refine ⟨fun keyword hkeyword => ⟨blocks_eq_map_extracted keyword cs, fun found =>
    mem_extracted_iff hkeyword⟩, ?_⟩
  intro tree htree s hs address haddress
  rw [isMap_path_configuration_iff htree hs haddress, blocks_eq_map_extracted]
  have hkeyword := isKeyword_of_mem_sections hs
  constructor
  · rintro ⟨block, hblock, hlabels⟩
    obtain ⟨found, hfound, rfl⟩ := List.mem_map.mp hblock
    exact ⟨found, (mem_extracted_iff hkeyword).mp hfound, hlabels⟩
  · rintro ⟨found, hfound, hlabels⟩
    exact ⟨_, List.mem_map_of_mem ((mem_extracted_iff hkeyword).mpr hfound), hlabels⟩

/-- A check with a data source of its own. -/
def scopedData : List Char :=
  Text.unlines [
    "check \"health\" \x7b".toList,
    "  data \"http\" \"site\" \x7b".toList,
    "    url = \"https://example.com\"".toList,
    "  \x7d".toList,
    "\x7d".toList]

/-- The data source within the check, with the place where its block is closed. -/
def scopedSource : Header × Nat :=
  ({ labels := ["http", "site"], offset := 17, brace := 38 }, 74)

theorem blocks_and_entries_outermost_scopedData :
    IsKeyword "data".toList ∧ IsOutermost "data".toList scopedData scopedSource ∧
      ∃ tree, configuration scopedData = .ok tree ∧ ⟨"data", 2⟩ ∈ sections ∧
        ((Value.map tree).path ["data", "http", "site"]).isMap = true := by
  have hkeyword : IsKeyword "data".toList := ⟨by decide, by decide⟩
  have hmem : scopedSource ∈ extracted "data" scopedData := by decide +kernel
  have hsome : (configuration scopedData).toOption.map (fun _ => ()) = some () := by
    decide +kernel
  have hsection : ⟨"data", 2⟩ ∈ sections := by decide
  obtain ⟨hblocks, hentries⟩ := blocks_and_entries_outermost scopedData
  have houtermost := ((hblocks "data" hkeyword).2 scopedSource).mp hmem
  obtain ⟨tree, htree, -⟩ := exists_of_toOption_map_eq_some hsome
  have hentry := hentries tree htree _ hsection ["http", "site"] rfl
  refine ⟨hkeyword, houtermost, tree, htree, hsection, ?_⟩
  exact hentry.mpr ⟨scopedSource, houtermost, List.prefix_refl _⟩

/-- A block that is taken may be nested, and then it has an entry like any other. -/
theorem not_forall_not_isNested :
    (¬∀ (keyword : String) (cs : List Char), IsKeyword keyword.toList →
      ∀ found ∈ extracted keyword cs, ¬IsNested cs found) ∧
    (configuration scopedData).toOption.map (fun tree =>
      ((Value.map tree).path ["data", "http", "site"]).isMap) = some true := by
  constructor
  · intro h
    have hmem : scopedSource ∈ extracted "data" scopedData := by decide +kernel
    apply h "data" scopedData ⟨by decide, by decide⟩ scopedSource hmem
    -- The braces of the check are around the data source.
    show ∃ start stop, closingOf? (bracePairs scopedData) start = some stop ∧ start < 17 ∧ 74 < stop
    refine ⟨15, 76, ?_, by decide, by decide⟩
    decide +kernel
  · decide +kernel

end Schematic.Hcl
