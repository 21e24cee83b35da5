import Schematic.Document.Parse
import Schematic.Proofs.Hcl.Spelling
import Schematic.Proofs.Text.Search

/-!
# Recognised spellings

A text is taken for a configuration if it holds one of a few words, or something like a header of a
resource. Its blocks are looked for afterwards, by readers that know more keywords and more ways to
write a header. So there are texts whose blocks make a tree, and yet they are not taken for a
configuration. Here it is told which spellings of a header are recognised in every text.

## Main definitions

- `Hcl.Spelling.IsRecognised` — spellings that make a text a configuration

## Main statements

- `Hcl.startsResource_append_iff` — which headers of a resource are recognised by their form
- `Hcl.Spelling.looksLikeHcl_of_isUsedIn`, `Hcl.Spelling.isRecognised_of_looksLikeHcl_sample` — a
  recognised spelling suffices, and another one does not
- `isBlocks_of_isUsedIn_iff` — the spellings that suffice
-/

namespace Schematic

namespace Hcl

variable {cs : List Char}

/-! ## What is looked for -/

theorem somewhere_iff {p : List Char → Bool} :
    somewhere p cs = true ↔ ∃ front back, cs = front ++ back ∧ p back = true := by
  induction cs with
  | nil =>
    rw [somewhere]
    constructor
    · exact fun h => ⟨[], [], rfl, h⟩
    · rintro ⟨front, back, hnil, h⟩
      obtain ⟨-, rfl⟩ := List.append_eq_nil_iff.mp hnil.symm
      exact h
  | cons c cs ih =>
    rw [somewhere, Bool.or_eq_true, ih]
    constructor
    · rintro (h | ⟨front, back, rfl, h⟩)
      · exact ⟨[], c :: cs, rfl, h⟩
      · exact ⟨c :: front, back, rfl, h⟩
    · rintro ⟨front, back, heq, h⟩
      cases front with
      | nil => exact .inl (heq ▸ h)
      | cons d front => exact .inr ⟨front, back, (List.cons.inj heq).2, h⟩

theorem looksLikeHcl_iff : looksLikeHcl cs = true ↔
    (∃ marker ∈ markers, marker.toList <:+: cs) ∨
    (∃ front back, cs = front ++ back ∧ startsBare "terraform" back = true) ∨
    ∃ front back, cs = front ++ back ∧ startsResource back = true := by
  simp only [looksLikeHcl, Bool.or_eq_true, List.any_eq_true, Text.occursIn_iff, somewhere_iff,
    or_assoc]

/-! ## Headers of resources -/

theorem isBlank_of_isGap {c : Char} (h : isGap c = true) : Text.isBlank c = true := by
  rcases Bool.or_eq_true_iff.mp h with h | h <;> rw [beq_iff_eq.mp h] <;> decide

theorem trimLeft_gap (gap : Gap) {c : Char} (hc : Text.isBlank c = false) (rest : List Char) :
    Text.trimLeft (gap.chars ++ c :: rest) = c :: rest := by
  have hgap : ∀ d ∈ gap.chars, Text.isBlank d = true := fun d hd =>
    isBlank_of_isGap (gap.isGap_chars d hd)
  rw [Text.trimLeft, List.dropWhile_append_of_pos hgap, List.dropWhile_cons_of_neg (by simp [hc])]

theorem afterBlanks?_gap (gap : Gap) {c : Char} (hc : Text.isBlank c = false) (rest : List Char) :
    afterBlanks? (gap.chars ++ c :: rest) = if gap.chars = [] then none else some (c :: rest) := by
  have htrim := trimLeft_gap gap hc rest
  have hgap := gap.isGap_chars
  cases hchars : gap.chars with
  | nil => simp [afterBlanks?, hc]
  | cons d chars =>
    rw [hchars] at htrim hgap
    have hd := isBlank_of_isGap (hgap d List.mem_cons_self)
    rw [List.cons_append, Text.trimLeft, List.dropWhile_cons_of_pos hd] at htrim
    rw [List.cons_append, afterBlanks?, if_pos hd, Text.trimLeft, htrim, if_neg (by simp)]

theorem afterLabel?_inQuotes (label : SpacedLabel) (rest : List Char) :
    afterLabel? (inQuotes label.text ++ rest) = some rest := by
  have hquoted : inQuotes label.text ++ rest = '"' :: (label.text ++ '"' :: rest) := by
    simp [inQuotes]
  have hdrop : (label.text ++ '"' :: rest).dropWhile (fun c => c != '"' && c != '\n') =
      '"' :: rest := by
    rw [List.dropWhile_append_of_pos, List.dropWhile_cons_of_neg (by decide)]
    intro c hc
    have hquote : c ≠ '"' := fun heq => label.quote_not_mem (heq ▸ hc)
    have hfeed : c ≠ '\n' := fun heq => label.feed_not_mem (heq ▸ hc)
    simp [hquote, hfeed]
  simp only [hquoted, afterLabel?, hdrop]

/-- What follows a gap and a label: the gap must not be empty. -/
theorem bind_afterLabel?_gap (gap : Gap) (label : SpacedLabel) (rest : List Char) :
    (afterBlanks? (gap.chars ++ (inQuotes label.text ++ rest))).bind afterLabel? =
      if gap.chars = [] then none else some rest := by
  have hblank := afterBlanks?_gap gap (c := '"') (by decide) (label.text ++ ['"'] ++ rest)
  have hquoted : '"' :: (label.text ++ ['"'] ++ rest) = inQuotes label.text ++ rest := rfl
  rw [hquoted] at hblank
  rw [hblank]
  split
  · rfl
  · exact afterLabel?_inQuotes label rest

/-- In front of the brace there is no further label. -/
theorem bind_afterLabel?_brace (gap : Gap) (rest : List Char) :
    (afterBlanks? (gap.chars ++ '{' :: rest)).bind afterLabel? = none := by
  rw [afterBlanks?_gap gap (by decide)]
  split <;> rfl

theorem exists_of_startsResource (h : startsResource cs = true) :
    ∃ rest, cs = "resource".toList ++ rest := by
  cases hprefix : "resource".toList.isPrefixOf? cs with
  | some rest => exact ⟨rest, (List.append_eq_of_isPrefixOf?_eq_some hprefix).symm⟩
  | none =>
    rw [startsResource, hprefix] at h
    cases h

theorem startsResource_append (rest : List Char) :
    startsResource ("resource".toList ++ rest) =
      ((((afterBlanks? rest).bind afterLabel?).bind fun rest =>
        (afterBlanks? rest).bind afterLabel?).any fun rest =>
          (Text.trimLeft rest).head? == some '{') := by
  have hprefix : "resource".toList.isPrefixOf? ("resource".toList ++ rest) = some rest :=
    List.isPrefixOf?_eq_some_iff_append_eq.mpr rfl
  simp only [startsResource, hprefix, Option.bind_eq_bind, Option.bind_some, Option.bind_assoc]
  split
  · next hleft =>
    rw [hleft]
    rfl
  · next hleft =>
    rw [hleft]
    rfl

/-- Behind a gap the brace comes first if there are no further labels. -/
theorem head?_trimLeft_gap (gap : Gap) (labels : List SpacedLabel) (back : List Char) :
    ((Text.trimLeft (gap.chars ++ (labels.flatMap SpacedLabel.chars ++ '{' :: back))).head? ==
      some '{') = labels.isEmpty := by
  cases labels with
  | nil =>
    rw [List.flatMap_nil, List.nil_append, trimLeft_gap gap (by decide)]
    rfl
  | cons label labels =>
    have hquoted : (label :: labels).flatMap SpacedLabel.chars ++ '{' :: back =
        '"' :: (label.text ++ ['"'] ++ label.gap.chars ++
          (labels.flatMap SpacedLabel.chars ++ '{' :: back)) := by
      simp [SpacedLabel.chars, inQuotes]
    rw [hquoted, trimLeft_gap gap (by decide)]
    rfl

/-- A resource is recognised by the form of its header if it has exactly two labels and there is a
gap in front of each. -/
theorem startsResource_append_iff (gap : Gap) {labels : List SpacedLabel} (hne : labels ≠ [])
    (back : List Char) :
    startsResource ("resource".toList ++ (spaced gap labels ++ '{' :: back)) = true ↔
      gap.chars ≠ [] ∧ ∃ first second : Gap, first.chars ≠ [] ∧
        labels.map SpacedLabel.gap = [first, second] := by
  obtain ⟨label, labels, rfl⟩ := List.exists_cons_of_ne_nil hne
  have hspaced : spaced gap (label :: labels) ++ '{' :: back = gap.chars ++ (inQuotes label.text ++
      (label.gap.chars ++ (labels.flatMap SpacedLabel.chars ++ '{' :: back))) := by
    simp [spaced, SpacedLabel.chars]
  rw [hspaced, startsResource_append, bind_afterLabel?_gap]
  by_cases hgap : gap.chars = []
  · simp [hgap]
  · rw [if_neg hgap, Option.bind_some]
    cases labels with
    -- The brace stands where the second label is looked for.
    | nil =>
      rw [List.flatMap_nil, List.nil_append, bind_afterLabel?_brace]
      simp
    | cons next labels =>
      have hnext : (next :: labels).flatMap SpacedLabel.chars ++ '{' :: back =
          inQuotes next.text ++
            (next.gap.chars ++ (labels.flatMap SpacedLabel.chars ++ '{' :: back)) := by
        simp [SpacedLabel.chars]
      rw [hnext, bind_afterLabel?_gap]
      by_cases hfirst : label.gap.chars = []
      · simp [hfirst]
      · rw [if_neg hfirst, Option.any_some, head?_trimLeft_gap, List.isEmpty_iff]
        simp [hgap, hfirst]

/-! ## Recognised spellings -/

theorem one_le_depth {kind : Section} (h : kind ∈ sections) : 1 ≤ kind.depth := by
  revert kind
  decide

namespace Spelling

variable {s : Spelling}

/-- The spellings that are recognised in every text: the word of a marker with a single blank
behind it, or a resource with two labels and a gap in front of each. -/
def IsRecognised (s : Spelling) : Prop :=
  (s.kind.keyword ∈ ["provider", "resource", "data"] ∧ s.gap.chars = [' ']) ∨
    (s.kind.keyword = "resource" ∧ s.gap.chars ≠ [] ∧
      ∃ first second : Gap, first.chars ≠ [] ∧ s.gaps = [first, second])

variable (s) in
theorem gaps_ne_nil : s.gaps ≠ [] := by
  have hone := Nat.le_trans (one_le_depth s.kind_mem) s.depth_le
  exact List.ne_nil_of_length_pos hone

theorem markers_of_keyword {keyword : String} (h : keyword ∈ ["provider", "resource", "data"]) :
    ∃ marker ∈ markers, marker.toList = keyword.toList ++ [' ', '"'] := by
  simp only [List.mem_cons, List.not_mem_nil, or_false] at h
  rcases h with rfl | rfl | rfl
  · exact ⟨"provider \"", by decide, rfl⟩
  · exact ⟨"resource \"", by decide, rfl⟩
  · exact ⟨"data \"", by decide, rfl⟩

/-- A text with a block whose header has a recognised spelling is taken for a configuration. -/
theorem looksLikeHcl_of_isUsedIn (h : s.IsRecognised) (hused : s.IsUsedIn cs) :
    looksLikeHcl cs = true := by
  obtain ⟨front, heading, back, texts, rfl, ⟨lead, labels, rfl, hgaps, -⟩, -⟩ := hused
  have hlabels : labels ≠ [] := by
    rintro rfl
    exact s.gaps_ne_nil hgaps.symm
  have hcs : front ++ (lead.chars ++ (s.keyword ++ spaced s.gap labels) ++ '{' :: back) =
      (front ++ lead.chars) ++ (s.keyword ++ (spaced s.gap labels ++ '{' :: back)) := by simp
  rw [hcs, looksLikeHcl_iff]
  rcases h with ⟨hkeyword, hgap⟩ | ⟨hkeyword, hgap, htwo⟩
  · obtain ⟨marker, hmarker, hword⟩ := markers_of_keyword hkeyword
    -- The quote at the end of the marker is the one that opens the first label.
    obtain ⟨label, labels, rfl⟩ := List.exists_cons_of_ne_nil hlabels
    refine .inl ⟨marker, hmarker, front ++ lead.chars, ?_⟩
    rw [hword, spaced, hgap]
    exact ⟨label.text ++ ['"'] ++ label.gap.chars ++
      (labels.flatMap SpacedLabel.chars ++ '{' :: back), by
        simp [keyword, SpacedLabel.chars, inQuotes]⟩
  · refine .inr (.inr ⟨_, _, rfl, ?_⟩)
    rw [keyword, hkeyword, startsResource_append_iff s.gap hlabels back, hgaps]
    exact ⟨hgap, htwo⟩

/-! ## Sample texts of other spellings -/

variable (s) in
/-- What follows the keyword of a sample text. -/
def sampleRest : List Char :=
  spaced s.gap (s.gaps.map letterLabel) ++ ['{', '}']

theorem sample_eq_append : s.sample = s.keyword ++ s.sampleRest :=
  List.append_assoc _ _ _

theorem mem_sampleRest {c : Char} (h : c ∈ s.sampleRest) :
    isGap c = true ∨ c ∈ ['"', 'x', '{', '}'] := by
  rcases List.mem_append.mp h with h | h
  · rcases List.mem_append.mp h with h | h
    · exact .inl (s.gap.isGap_chars c h)
    · obtain ⟨label, hlabel, h⟩ := List.mem_flatMap.mp h
      obtain ⟨gap, -, rfl⟩ := List.mem_map.mp hlabel
      rcases List.mem_append.mp h with h | h
      · have hquoted : c ∈ ['"', 'x', '"'] := h
        simp at hquoted ⊢
        tauto
      · exact .inl (gap.isGap_chars c h)
  · simp at h ⊢
    tauto

/-- The words that are looked for. -/
def words : List String :=
  ["terraform", "provider", "resource", "data"]

/-- A word that stands in a sample text is its keyword. -/
theorem eq_of_sample_eq_append {word : String} (hword : word ∈ words) {front more : List Char}
    (h : s.sample = front ++ (word.toList ++ more)) :
    word = s.kind.keyword ∧ more = s.sampleRest := by
  have hletters : ∀ word ∈ words, word.toList ≠ [] ∧
      ∀ c ∈ word.toList, isGap c = false ∧ c ∉ ['"', 'x', '{', '}'] := by decide
  have hkeywords : ∀ word ∈ words, ∀ kind ∈ sections, word.toList <:+: kind.keyword.toList →
      word = kind.keyword := by decide +kernel
  obtain ⟨hne, hletters⟩ := hletters word hword
  -- What follows the keyword has no letter of a word, so the word stands within the keyword.
  have hrest : ∀ c ∈ word.toList, c ∉ s.sampleRest := by
    intro c hc hmem
    rcases mem_sampleRest hmem with hgap | hother
    · rw [(hletters c hc).1] at hgap
      cases hgap
    · exact (hletters c hc).2 hother
  rw [sample_eq_append] at h
  obtain ⟨after, hkeyword, rfl⟩ := Text.exists_append_of_not_mem hne hrest h.symm
  have hstands : word.toList <:+: s.kind.keyword.toList := ⟨front, after, by
    rw [List.append_assoc]
    exact hkeyword.symm⟩
  have heq := hkeywords word hword s.kind s.kind_mem hstands
  -- Nothing is left around the word.
  have hlength := congrArg List.length hkeyword
  rw [keyword, ← heq, List.length_append, List.length_append] at hlength
  have hafter : after = [] := List.eq_nil_of_length_eq_zero (by omega)
  exact ⟨heq, by rw [hafter, List.nil_append]⟩

/-- Behind its first gap a sample text has a quote. -/
theorem gap_eq_of_sampleRest {more : List Char} (h : s.sampleRest = ' ' :: '"' :: more) :
    s.gap.chars = [' '] := by
  obtain ⟨gap, gaps, hgaps⟩ := List.exists_cons_of_ne_nil s.gaps_ne_nil
  have hrest : ∃ rest, s.sampleRest = s.gap.chars ++ '"' :: rest := by
    rw [sampleRest, spaced, hgaps]
    exact ⟨_, by simp [SpacedLabel.chars, inQuotes]; rfl⟩
  obtain ⟨rest, hrest⟩ := hrest
  rw [hrest] at h
  have hgap := s.gap.isGap_chars
  cases hchars : s.gap.chars with
  | nil =>
    rw [hchars] at h
    exact absurd (List.cons.inj h).1 (by decide)
  | cons c chars =>
    rw [hchars] at h hgap
    obtain ⟨rfl, htail⟩ := List.cons.inj h
    cases chars with
    | nil => rfl
    | cons d chars =>
      obtain ⟨rfl, -⟩ := List.cons.inj htail
      exact absurd (hgap '"' (by simp)) (by decide)

/-- The sample text of a spelling that is not recognised is not taken for a configuration. -/
theorem isRecognised_of_looksLikeHcl_sample (h : looksLikeHcl s.sample = true) :
    s.IsRecognised := by
  -- All that is looked for begins with a word, which can only be the keyword of the sample.
  have hnone : ∀ kind ∈ sections, "terraform" ≠ kind.keyword := by decide
  have hbare (front more : List Char)
      (h : s.sample = front ++ ("terraform".toList ++ more)) : s.IsRecognised :=
    absurd (eq_of_sample_eq_append (by decide) h).1 (hnone s.kind s.kind_mem)
  have hmarked (word : String) (hword : word ∈ ["provider", "resource", "data"])
      (h : word.toList ++ [' ', '"'] <:+: s.sample) : s.IsRecognised := by
    obtain ⟨front, back, hsample⟩ := h
    have hsplit : s.sample = front ++ (word.toList ++ ([' ', '"'] ++ back)) := by
      rw [← hsample]
      simp
    obtain ⟨rfl, hrest⟩ := eq_of_sample_eq_append (List.mem_cons_of_mem _ hword) hsplit
    exact .inl ⟨hword, gap_eq_of_sampleRest hrest.symm⟩
  rcases looksLikeHcl_iff.mp h with ⟨marker, hmarker, hstands⟩ | ⟨front, back, hsample, hstart⟩ |
    ⟨front, back, hsample, hstart⟩
  · simp only [markers, List.mem_cons, List.not_mem_nil, or_false] at hmarker
    rcases hmarker with rfl | rfl | rfl | rfl
    · obtain ⟨front, back, hsample⟩ := hstands
      apply hbare front ([' ', '{'] ++ back)
      rw [← hsample, List.append_assoc]
      rfl
    · exact hmarked "provider" (by decide) hstands
    · exact hmarked "resource" (by decide) hstands
    · exact hmarked "data" (by decide) hstands
  · unfold startsBare at hstart
    split at hstart
    · next more hprefix =>
      rw [← List.append_eq_of_isPrefixOf?_eq_some hprefix] at hsample
      exact hbare front more hsample
    · cases hstart
  · obtain ⟨rest, rfl⟩ := exists_of_startsResource hstart
    obtain ⟨hkeyword, rfl⟩ := eq_of_sample_eq_append (by decide) hsample
    have hlabels : s.gaps.map letterLabel ≠ [] := by simp [s.gaps_ne_nil]
    have hgaps : (s.gaps.map letterLabel).map SpacedLabel.gap = s.gaps := by
      rw [List.map_map]
      exact List.map_id _
    rw [sampleRest, startsResource_append_iff s.gap hlabels, hgaps] at hstart
    exact .inr ⟨hkeyword.symm, hstart⟩

/-- No keyword of a section begins like a mapping of JSON. -/
theorem startsMapping_sample (s : Spelling) : Parse.startsMapping s.sample = false := by
  have hkind := s.kind_mem
  rw [sample_eq_append, keyword]
  simp only [sections, List.mem_cons, List.not_mem_nil, or_false] at hkind
  rcases hkind with heq | heq | heq | heq | heq <;> rw [heq] <;> rfl

end Spelling

end Hcl

open Parse

/-- The tree of a text is not empty if it has a block whose header has one of the spellings; and
among these the recognised ones, and no others, make every text that does not begin like a mapping
of JSON a configuration. -/
theorem isBlocks_of_isUsedIn_iff :
    (∀ cs tree, Hcl.configuration cs = .ok tree →
      (tree ≠ [] ↔ ∃ s : Hcl.Spelling, s.IsUsedIn cs)) ∧
    ∀ s : Hcl.Spelling, (∀ cs, startsMapping cs = false → s.IsUsedIn cs → isBlocks cs = true) ↔
      s.IsRecognised := by
  refine ⟨fun cs tree h => Hcl.configuration_ne_nil_iff_isUsedIn h, fun s => ⟨fun h => ?_, ?_⟩⟩
  -- For the converse one text is enough: the sample, in which the spelling is used.
  · have hsample := h s.sample s.startsMapping_sample s.isUsedIn_sample
    exact Hcl.Spelling.isRecognised_of_looksLikeHcl_sample (Bool.and_eq_true_iff.mp hsample).1
  · intro h cs hstart hused
    rw [isBlocks, Hcl.Spelling.looksLikeHcl_of_isUsedIn h hused, hstart]
    rfl

/-- A resource with a tab behind its keyword and no gap in front of its brace. -/
def tabbedResource : Hcl.Spelling where
  kind := ⟨"resource", 2⟩
  gap := ⟨['\t'], by decide⟩
  gaps := [⟨[' '], by decide⟩, ⟨[], by decide⟩]
  kind_mem := by decide
  depth_le := by decide

theorem isBlocks_of_isUsedIn_iff_tabbedResource :
    tabbedResource.sample = "resource\t\"x\" \"x\"\x7b\x7d".toList ∧
    isBlocks tabbedResource.sample = true ∧
    ∃ tree, Hcl.configuration tabbedResource.sample = .ok tree ∧ tree ≠ [] := by
  have hrecognised : tabbedResource.IsRecognised :=
    .inr ⟨rfl, by decide, ⟨[' '], by decide⟩, ⟨[], by decide⟩, by decide, rfl⟩
  have hused := tabbedResource.isUsedIn_sample
  have hsome : (Hcl.configuration tabbedResource.sample).toOption.map (fun _ => ()) = some () := by
    decide +kernel
  obtain ⟨tree, htree, -⟩ := exists_of_toOption_map_eq_some hsome
  refine ⟨rfl, ?_, tree, htree, ?_⟩
  · exact (isBlocks_of_isUsedIn_iff.2 tabbedResource).mpr hrecognised _
      tabbedResource.startsMapping_sample hused
  · exact (isBlocks_of_isUsedIn_iff.1 _ tree htree).mpr ⟨tabbedResource, hused⟩

/-- A text with a variable only. -/
def loneVariable : List Char :=
  Text.unlines ["variable \"region\" \x7b".toList, "\x7d".toList]

/-- A variable is found in a text, and still the text is not taken for a configuration. -/
theorem not_looksLikeHcl_of_configuration_ne_nil : ¬∀ (cs : List Char) (tree : Entries Value),
    startsMapping cs = false → Hcl.configuration cs = .ok tree → tree ≠ [] →
      Hcl.looksLikeHcl cs = true := by
  intro hall
  have hkeys : (Hcl.configuration loneVariable).toOption.map Entries.keys = some ["variable"] := by
    decide +kernel
  obtain ⟨tree, htree, hkeys⟩ := exists_of_toOption_map_eq_some hkeys
  have hne : tree ≠ [] := by
    rintro rfl
    cases hkeys
  have hlooks : Hcl.looksLikeHcl loneVariable = false := by decide +kernel
  have hstart : startsMapping loneVariable = false := by decide +kernel
  rw [hall loneVariable tree hstart htree hne] at hlooks
  cases hlooks

end Schematic
