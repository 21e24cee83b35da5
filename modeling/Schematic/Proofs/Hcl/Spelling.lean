import Schematic.Proofs.Hcl.Outermost

/-!
# Spellings of a header

A header is a keyword and labels in quotes, and there may be blanks and tabs behind each of these.
How a header is spelled is told by its keyword and by its gaps, apart from the texts of the labels.
Every block that makes an entry of the tree has a spelling with enough labels, and there are texts
with such a block for each of these spellings.

## Main definitions

- `Gap`, `SpacedLabel`, `spaced` — gaps, and labels with gaps around them
- `Spelling` — the ways to spell the header of an entry
- `Spelling.Spells`, `Spelling.IsUsedIn` — a header, or one of a text, is spelled so
- `Spelling.sample` — the text of a block whose header is spelled so

## Main statements

- `quotedLabels_iff` — labels in quotes are told by their gaps and texts
- `configuration_ne_nil_iff_isUsedIn` — when the tree of a text is not empty
- `Spelling.isUsedIn_sample` — every spelling is used in some text
-/

namespace Schematic.Hcl

variable {cs heading : List Char} {texts : List (List Char)}

/-! ## Gaps and labels -/

/-- Blanks and tabs. -/
structure Gap where
  chars : List Char
  isGap_chars : ∀ c ∈ chars, isGap c = true

/-- A label that may stand in quotes, with the gap behind it. -/
structure SpacedLabel where
  text : List Char
  gap : Gap
  quote_not_mem : '"' ∉ text
  feed_not_mem : '\n' ∉ text

def SpacedLabel.chars (label : SpacedLabel) : List Char :=
  inQuotes label.text ++ label.gap.chars

/-- A gap and the labels behind it. -/
def spaced (gap : Gap) (labels : List SpacedLabel) : List Char :=
  gap.chars ++ labels.flatMap SpacedLabel.chars

theorem QuotedLabels.append_gap (h : QuotedLabels cs texts) (gap : Gap) :
    QuotedLabels (gap.chars ++ cs) texts := by
  obtain ⟨chars, hchars⟩ := gap
  induction chars with
  | nil => exact h
  | cons c chars ih =>
    rw [List.forall_mem_cons] at hchars
    exact .gap hchars.1 (ih hchars.2)

theorem quotedLabels_flatMap (labels : List SpacedLabel) :
    QuotedLabels (labels.flatMap SpacedLabel.chars) (labels.map SpacedLabel.text) := by
  induction labels with
  | nil => exact .nil
  | cons label labels ih =>
    have hlabel := QuotedLabels.label label.quote_not_mem label.feed_not_mem
      (ih.append_gap label.gap)
    simpa [SpacedLabel.chars, inQuotes] using hlabel

/-- Labels in quotes are labels with gaps around them. -/
theorem quotedLabels_iff : QuotedLabels cs texts ↔
    ∃ gap labels, cs = spaced gap labels ∧ texts = labels.map SpacedLabel.text := by
  constructor
  · intro h
    induction h with
    | nil => exact ⟨⟨[], by simp⟩, [], rfl, rfl⟩
    | @gap c _ _ hc _ ih =>
      obtain ⟨gap, labels, rfl, rfl⟩ := ih
      exact ⟨⟨c :: gap.chars, List.forall_mem_cons.mpr ⟨hc, gap.isGap_chars⟩⟩, labels, rfl, rfl⟩
    | @label text _ _ hquote hfeed _ ih =>
      obtain ⟨gap, labels, rfl, rfl⟩ := ih
      -- The gap in front of the rest is now the one behind the new label.
      refine ⟨⟨[], by simp⟩, ⟨text, gap, hquote, hfeed⟩ :: labels, ?_, rfl⟩
      simp [spaced, SpacedLabel.chars, inQuotes]
  · rintro ⟨gap, labels, rfl, rfl⟩
    exact (quotedLabels_flatMap labels).append_gap gap

/-! ## Spellings -/

/-- The way to spell the header of a block that makes an entry: its section, the gap behind the
keyword and the gap behind each label. -/
structure Spelling where
  kind : Section
  gap : Gap
  gaps : List Gap
  kind_mem : kind ∈ sections
  depth_le : kind.depth ≤ gaps.length

namespace Spelling

variable (s : Spelling)

def keyword : List Char :=
  s.kind.keyword.toList

theorem isKeyword_keyword : IsKeyword s.keyword :=
  isKeyword_of_mem_sections s.kind_mem

/-- A heading with these labels is spelled so. -/
def Spells (heading : List Char) (texts : List (List Char)) : Prop :=
  ∃ (lead : Gap) (labels : List SpacedLabel),
    heading = lead.chars ++ (s.keyword ++ spaced s.gap labels) ∧
    labels.map SpacedLabel.gap = s.gaps ∧ texts = labels.map SpacedLabel.text

/-- A block of the text has a header that is spelled so. -/
def IsUsedIn (cs : List Char) : Prop :=
  ∃ front heading back texts, cs = front ++ (heading ++ '{' :: back) ∧ s.Spells heading texts ∧
    ∃ block ∈ blocks s.kind.keyword cs, block.offset = front.length ∧
      block.labels = texts.map String.ofList

end Spelling

/-- Every heading with enough labels is spelled in one of these ways. -/
theorem exists_spells {kind : Section} (hkind : kind ∈ sections)
    (h : IsHeading kind.keyword.toList texts heading) (hdepth : kind.depth ≤ texts.length) :
    ∃ s : Spelling, s.kind = kind ∧ s.Spells heading texts := by
  obtain ⟨lead, quoted, rfl, hlead, hquoted⟩ := h
  obtain ⟨gap, labels, rfl, rfl⟩ := quotedLabels_iff.mp hquoted
  have hgaps : kind.depth ≤ (labels.map SpacedLabel.gap).length := by
    simpa using hdepth
  exact ⟨⟨kind, gap, labels.map SpacedLabel.gap, hkind, hgaps⟩, rfl, ⟨lead, hlead⟩, labels, rfl,
    rfl, rfl⟩

/-- The tree of a text is not empty if one of these spellings is used in it. -/
theorem configuration_ne_nil_iff_isUsedIn {tree : Entries Value} (h : configuration cs = .ok tree) :
    tree ≠ [] ↔ ∃ s : Spelling, s.IsUsedIn cs := by
  rw [configuration_ne_nil_iff h]
  constructor
  · rintro ⟨kind, hkind, block, hblock, hdepth⟩
    have hmem := hblock
    rw [blocks_eq_map_extracted] at hblock
    obtain ⟨found, hfound, rfl⟩ := List.mem_map.mp hblock
    -- The header of the block stands in the text, with as many labels as the block has.
    obtain ⟨front, heading, back, texts, hcs, -, hheading, hheader⟩ :=
      ((mem_extracted_iff (isKeyword_of_mem_sections hkind)).mp hfound).isClosed.1
    have hlabels : found.1.labels = texts.map String.ofList := by rw [hheader]
    have hoffset : found.1.offset = front.length := by rw [hheader]
    have hlength : kind.depth ≤ texts.length := by
      have hlength : (blockOf kind.keyword cs found).labels.length = texts.length := by
        rw [blockOf, hlabels, List.length_map]
      rwa [hlength] at hdepth
    obtain ⟨s, rfl, hspells⟩ := exists_spells hkind hheading hlength
    exact ⟨s, front, heading, back, texts, hcs, hspells, _, hmem, hoffset, hlabels⟩
  · rintro ⟨s, front, heading, back, texts, -, ⟨lead, labels, -, hgaps, rfl⟩, block, hblock, -,
      hlabels⟩
    refine ⟨s.kind, s.kind_mem, block, hblock, ?_⟩
    -- Every label has its gap, so there are enough of both.
    have hdepth := s.depth_le
    rw [← hgaps, List.length_map] at hdepth
    rwa [hlabels, List.length_map, List.length_map]

/-! ## Sample texts -/

/-- A label of one letter with a gap behind it. -/
def letterLabel (gap : Gap) : SpacedLabel :=
  ⟨['x'], gap, by decide, by decide⟩

namespace Spelling

variable (s : Spelling)

/-- The heading of the sample text. -/
def sampleHeading : List Char :=
  s.keyword ++ spaced s.gap (s.gaps.map letterLabel)

/-- The text of an empty block whose header is spelled so. -/
def sample : List Char :=
  s.sampleHeading ++ ['{', '}']

theorem isFlat_gap (gap : Gap) : IsFlat gap.chars :=
  isFlat_plain fun c hc => isPlain_of_class (gap.isGap_chars c hc) (by decide)

theorem isFlat_sampleHeading : IsFlat s.sampleHeading := by
  have hlabels (gaps : List Gap) : IsFlat ((gaps.map letterLabel).flatMap SpacedLabel.chars) := by
    induction gaps with
    | nil => exact isFlat_plain (by simp)
    | cons gap gaps ih =>
      have hletter : IsQuotable ['x'] := by decide
      have hlabel : IsFlat (letterLabel gap).chars :=
        (isFlat_inQuotes hletter).append (isFlat_gap gap)
      exact hlabel.append ih
  have hword : IsFlat s.keyword := isFlat_plain s.isKeyword_keyword.isPlain
  exact hword.append ((isFlat_gap s.gap).append (hlabels s.gaps))

theorem spells_sampleHeading :
    s.Spells s.sampleHeading ((s.gaps.map letterLabel).map SpacedLabel.text) := by
  refine ⟨⟨[], by simp⟩, s.gaps.map letterLabel, rfl, ?_, rfl⟩
  rw [List.map_map]
  exact List.map_id _

variable {s} in
theorem Spells.isHeading (h : s.Spells heading texts) : IsHeading s.keyword texts heading := by
  obtain ⟨lead, labels, rfl, -, rfl⟩ := h
  exact ⟨lead.chars, _, rfl, lead.isGap_chars, quotedLabels_iff.mpr ⟨_, _, rfl, rfl⟩⟩

/-- The sample text has the block of its header. -/
theorem isUsedIn_sample : s.IsUsedIn s.sample := by
  have hspells := s.spells_sampleHeading
  have hheading := hspells.isHeading
  have hsample : s.sample = s.sampleHeading ++ ['{'] ++ ['}'] := by simp [sample]
  -- The header is found at the front of the text, as there is no line end in front of its brace.
  have hread : header? s.keyword (s.sampleHeading ++ ['{'] ++ ['}']) =
      some ((s.gaps.map letterLabel).map SpacedLabel.text, ['}']) :=
    (header?_eq_some_iff s.isKeyword_keyword).mpr ⟨_, hheading, by simp⟩
  have hfeed : '\n' ∉ s.sampleHeading ++ ['{'] := by
    simp [hheading.feed_not_mem s.isKeyword_keyword]
  -- No brace of its own stands in the heading, so the two at the end are the pair of the block.
  obtain ⟨ls, hlexemes, -⟩ := s.isFlat_sampleHeading
  have hempty : FillsBlock [] [] := HasLexemes.nil.fillsBlock (Balanced.of_forall (by simp))
  have hblocks : blocks s.kind.keyword s.sample =
      closedBlocks s.kind.keyword s.sample (bracePairs s.sample) 0
        (headersFrom s.keyword 0 true 0 (s.sampleHeading ++ ['{'] ++ ['}'])) := by
    rw [← hsample]
    rfl
  refine ⟨[], s.sampleHeading, ['}'], _, rfl, hspells, ?_⟩
  rw [hblocks, headersFrom_head (by simp) hfeed hread,
    closedBlocks_cons (hlexemes.append hasLexemes_openBrace) hempty hsample (by simp)
      (Nat.zero_le _)]
  exact ⟨_, List.mem_cons_self, rfl, rfl⟩

end Spelling

end Schematic.Hcl
