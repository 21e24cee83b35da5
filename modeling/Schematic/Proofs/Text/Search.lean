import Schematic.Proofs.Text.Blank
import Schematic.Text.Search

/-!
# Cutting and searching a text

A piece that does not hold a character is what is found in front of it when a text is cut there. A
word that does not hold a separator stands in one of the pieces around it if it stands in the text.

## Main statements

- `splitAtChar_append`, `splitAtChar_of_not_mem` — the pieces of a text
- `splitAtChar_unlines` — lines are the pieces of their text
- `cutAtChar?_append` — the piece in front of the first cut
- `occursIn_iff` — the search finds every place
- `infix_append_cons_iff`, `infix_intercalate_iff` — words in texts with separators
-/

namespace Schematic.Text

/-- A piece without separators in front of one. -/
theorem splitAtChar_append {sep : Char} {piece : List Char} (h : sep ∉ piece) (rest : List Char) :
    splitAtChar sep (piece ++ sep :: rest) = piece :: splitAtChar sep rest := by
  induction piece with
  | nil => rw [List.nil_append, splitAtChar, if_pos rfl]
  | cons c piece ih =>
    have hc : c ≠ sep := fun heq => h (heq ▸ List.mem_cons_self)
    rw [List.cons_append, splitAtChar, if_neg hc, ih fun hmem => h (List.mem_cons_of_mem _ hmem)]

theorem splitAtChar_of_not_mem {sep : Char} {piece : List Char} (h : sep ∉ piece) :
    splitAtChar sep piece = [piece] := by
  induction piece with
  | nil => rfl
  | cons c piece ih =>
    have hc : c ≠ sep := fun heq => h (heq ▸ List.mem_cons_self)
    rw [splitAtChar, if_neg hc, ih fun hmem => h (List.mem_cons_of_mem _ hmem)]

theorem splitAtChar_ne_nil (sep : Char) (cs : List Char) : splitAtChar sep cs ≠ [] := by
  cases cs with
  | nil => simp [splitAtChar]
  | cons c cs =>
    rw [splitAtChar]
    split
    · simp
    · split <;> simp

/-- The pieces of two texts with a separator between them. -/
theorem splitAtChar_append_sep (sep : Char) (cs ds : List Char) :
    splitAtChar sep (cs ++ sep :: ds) = splitAtChar sep cs ++ splitAtChar sep ds := by
  induction cs with
  | nil => simp [splitAtChar]
  | cons c cs ih =>
    rw [List.cons_append, splitAtChar, splitAtChar, ih]
    split
    · rfl
    · obtain ⟨piece, more, hpieces⟩ := List.exists_cons_of_ne_nil (splitAtChar_ne_nil sep cs)
      rw [hpieces]
      rfl

/-- No piece holds a separator. -/
theorem sep_not_mem_of_mem_splitAtChar {sep : Char} {cs piece : List Char}
    (h : piece ∈ splitAtChar sep cs) : sep ∉ piece := by
  induction cs generalizing piece with
  | nil =>
    rw [List.mem_singleton.mp h]
    exact List.not_mem_nil
  | cons c cs ih =>
    obtain ⟨first, more, hpieces⟩ := List.exists_cons_of_ne_nil (splitAtChar_ne_nil sep cs)
    rw [splitAtChar, hpieces] at h
    rw [hpieces] at ih
    split at h
    · rcases List.mem_cons.mp h with rfl | h
      · exact List.not_mem_nil
      · exact ih h
    · next hc =>
      rcases List.mem_cons.mp h with rfl | h
      · intro hmem
        rcases List.mem_cons.mp hmem with rfl | hmem
        · exact hc rfl
        · exact ih List.mem_cons_self hmem
      · exact ih (List.mem_cons_of_mem _ h)

/-- The characters of a piece are those of the text. -/
theorem mem_of_mem_splitAtChar {sep c : Char} {cs piece : List Char}
    (h : piece ∈ splitAtChar sep cs) (hc : c ∈ piece) : c ∈ cs := by
  induction cs generalizing piece with
  | nil =>
    rw [List.mem_singleton.mp h] at hc
    exact hc
  | cons d cs ih =>
    obtain ⟨first, more, hpieces⟩ := List.exists_cons_of_ne_nil (splitAtChar_ne_nil sep cs)
    rw [splitAtChar, hpieces] at h
    rw [hpieces] at ih
    split at h
    · rcases List.mem_cons.mp h with rfl | h
      · cases hc
      · exact List.mem_cons_of_mem _ (ih h hc)
    · rcases List.mem_cons.mp h with rfl | h
      · rcases List.mem_cons.mp hc with rfl | hc
        · exact List.mem_cons_self
        · exact List.mem_cons_of_mem _ (ih List.mem_cons_self hc)
      · exact List.mem_cons_of_mem _ (ih (List.mem_cons_of_mem _ h) hc)

/-- The line feed at the end leaves an empty piece behind it. -/
theorem splitAtChar_unlines {lines : List (List Char)} (h : ∀ line ∈ lines, '\n' ∉ line) :
    splitAtChar '\n' (unlines lines) = lines ++ [[]] := by
  induction lines with
  | nil => rfl
  | cons line lines ih =>
    rw [unlines_cons, splitAtChar_append (h line List.mem_cons_self),
      ih fun l hl => h l (List.mem_cons_of_mem _ hl), List.cons_append]

/-- Texts joined with line feeds, and one more behind them. -/
theorem toList_join_feed {parts : List String} (hne : parts ≠ []) :
    (join "\n" parts ++ "\n").toList = unlines (parts.map String.toList) := by
  induction parts with
  | nil => exact absurd rfl hne
  | cons part parts ih =>
    cases parts with
    | nil =>
      rw [join, String.intercalate_singleton, String.toList_append, List.map_singleton,
        unlines_cons]
      rfl
    | cons next parts =>
      have hrest := ih (List.cons_ne_nil _ _)
      rw [join, String.toList_append] at hrest
      rw [join, String.intercalate_cons_cons, List.map_cons, unlines_cons, ← hrest]
      simp

theorem cutAtChar?_append {stop : Char} {front : List Char} (h : stop ∉ front)
    (rest : List Char) : cutAtChar? stop (front ++ stop :: rest) = some (front, rest) := by
  induction front with
  | nil => rw [List.nil_append, cutAtChar?, if_pos rfl]
  | cons c front ih =>
    have hc : c ≠ stop := fun heq => h (heq ▸ List.mem_cons_self)
    rw [List.cons_append, cutAtChar?, if_neg hc, ih fun hmem => h (List.mem_cons_of_mem _ hmem)]
    rfl

theorem append_of_cutAtChar? {stop : Char} {cs front rest : List Char}
    (h : cutAtChar? stop cs = some (front, rest)) : cs = front ++ stop :: rest ∧ stop ∉ front := by
  induction cs generalizing front with
  | nil => cases h
  | cons c cs ih =>
    rw [cutAtChar?] at h
    split at h
    · next hc =>
      obtain ⟨rfl, rfl⟩ := Prod.mk.inj (Option.some.inj h)
      exact ⟨hc ▸ rfl, List.not_mem_nil⟩
    · next hc =>
      obtain ⟨⟨before, after⟩, hcut, heq⟩ := Option.map_eq_some_iff.mp h
      obtain ⟨rfl, rfl⟩ := Prod.mk.inj heq
      obtain ⟨rfl, hbefore⟩ := ih hcut
      exact ⟨rfl, by simp [hbefore, Ne.symm hc]⟩

theorem not_mem_of_cutAtChar?_eq_none {stop : Char} {cs : List Char}
    (h : cutAtChar? stop cs = none) : stop ∉ cs := by
  induction cs with
  | nil => exact List.not_mem_nil
  | cons c cs ih =>
    rw [cutAtChar?] at h
    split at h
    · cases h
    · next hc => simp [Ne.symm hc, ih (Option.map_eq_none_iff.mp h)]

/-- A cut behind text that does not hold the character. -/
theorem cutAtChar?_append_of_not_mem {stop : Char} {front : List Char} (h : stop ∉ front)
    (rest : List Char) : cutAtChar? stop (front ++ rest) =
      (cutAtChar? stop rest).map fun cut => (front ++ cut.1, cut.2) := by
  cases hcut : cutAtChar? stop rest with
  | none =>
    induction front with
    | nil => exact hcut
    | cons c front ih =>
      have hc : c ≠ stop := fun heq => h (heq ▸ List.mem_cons_self)
      rw [List.cons_append, cutAtChar?, if_neg hc,
        ih fun hmem => h (List.mem_cons_of_mem _ hmem)]
      rfl
  | some cut =>
    obtain ⟨before, after⟩ := cut
    obtain ⟨rfl, hbefore⟩ := append_of_cutAtChar? hcut
    have hfront : stop ∉ front ++ before := by simp [h, hbefore]
    rw [← List.append_assoc, cutAtChar?_append hfront]
    rfl

/-! ## Words in a text -/

variable {word : List Char}

/-- The search finds a word wherever it stands. -/
theorem occursIn_iff {cs : List Char} : occursIn word cs = true ↔ word <:+: cs := by
  induction cs with
  | nil => rw [occursIn, List.isEmpty_iff, List.infix_nil]
  | cons c cs ih =>
    rw [occursIn, Bool.or_eq_true, List.isPrefixOf_iff_prefix, ih, List.infix_cons_iff]

/-- A word stands on one side of a character that it does not hold. -/
theorem infix_append_cons_iff {sep : Char} (h : sep ∉ word) {front back : List Char} :
    word <:+: front ++ sep :: back ↔ word <:+: front ∨ word <:+: back := by
  -- A part of the word that begins with the separator is empty.
  have hback {part : List Char} (hpart : sep ∉ part) (hstart : part <+: sep :: back) :
      part = [] := by
    rcases List.prefix_cons_iff.mp hstart with rfl | ⟨rest, rfl, -⟩
    · rfl
    · exact absurd List.mem_cons_self hpart
  constructor
  · intro hword
    rcases List.infix_append_iff.mp hword with hfront | hrest | ⟨left, right, rfl, hleft, hright⟩
    · exact .inl hfront
    · rcases List.infix_cons_iff.mp hrest with hstart | hrest
      · exact .inr (hback h hstart ▸ List.nil_infix)
      · exact .inr hrest
    · obtain rfl := hback (fun hmem => h (List.mem_append_right _ hmem)) hright
      exact .inl (by simpa using hleft.isInfix)
  · rintro (hfront | hrest)
    · exact hfront.trans (List.prefix_append front _).isInfix
    · exact hrest.trans ((List.suffix_cons sep back).trans (List.suffix_append front _)).isInfix

/-- A word does not begin in a part that its first character is not in. -/
theorem infix_append_iff_of_head_not_mem {c : Char} {front : List Char} (h : c ∉ front)
    (back : List Char) : c :: word <:+: front ++ back ↔ c :: word <:+: back := by
  induction front with
  | nil => rw [List.nil_append]
  | cons d front ih =>
    rw [List.mem_cons, not_or] at h
    rw [List.cons_append, List.infix_cons_iff, ih h.2, List.cons_prefix_cons]
    exact or_iff_right fun hstart => h.1 hstart.1

/-- A word none of whose characters is in the rest of a text stands in front of the rest. -/
theorem exists_append_of_not_mem (hne : word ≠ []) {front more before rest : List Char}
    (hrest : ∀ c ∈ word, c ∉ rest) (h : front ++ (word ++ more) = before ++ rest) :
    ∃ after, before = front ++ (word ++ after) ∧ more = after ++ rest := by
  rw [← List.append_assoc] at h
  rcases List.append_eq_append_iff.mp h with ⟨after, rfl, rfl⟩ | ⟨beyond, hword, rfl⟩
  · exact ⟨after, List.append_assoc _ _ _, rfl⟩
  · rcases List.eq_nil_or_concat beyond with rfl | ⟨beyond, c, rfl⟩
    · exact ⟨[], by simpa using hword.symm, by simp⟩
    -- The last character of the word would be one of the rest.
    · obtain ⟨word, d, rfl⟩ := (List.eq_nil_or_concat word).resolve_left hne
      rw [List.concat_eq_append, List.concat_eq_append, ← List.append_assoc,
        ← List.append_assoc] at hword
      obtain ⟨-, hlast⟩ := List.append_inj' hword rfl
      obtain rfl := List.singleton_inj.mp hlast
      exact absurd (by simp) (hrest d (by simp))

/-- A word that holds no character of a separator stands in one of the pieces. -/
theorem infix_intercalate_iff (hne : word ≠ []) {c d : Char} (hc : c ∉ word) (hd : d ∉ word)
    {parts : List (List Char)} :
    word <:+: [c, d].intercalate parts ↔ ∃ part ∈ parts, word <:+: part := by
  induction parts with
  | nil => simp [hne]
  | cons part parts ih =>
    cases parts with
    | nil => simp
    | cons next parts =>
      have hsplit : [c, d].intercalate (part :: next :: parts) =
          part ++ c :: ([] ++ d :: [c, d].intercalate (next :: parts)) := by
        rw [List.intercalate_cons_cons, List.append_assoc]
        rfl
      rw [hsplit, infix_append_cons_iff hc, infix_append_cons_iff hd, ih, List.infix_nil]
      simp [hne]

end Schematic.Text
