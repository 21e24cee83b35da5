import Schematic.Proofs.Hcl.Line

/-!
# Reading written tags

The tags of a block are found by walking over its text. A tag that is written with its name, an
equals sign and its text in quotes is found whole, whatever its name and text hold, and the walk
goes on behind it.

## Main statements

- `Tag.tag?_line` — a written tag is found
- `tagsFrom_unlines` — the tags of written lines
-/

namespace Schematic.Hcl

open Text (unlines unlines_cons unlines_append)

/-! ## One tag -/

theorem dropQuote_of_ne {cs : List Char} (h : '"' ∉ cs.head?) : dropQuote cs = cs := by
  unfold dropQuote
  split
  · exact absurd rfl h
  · rfl

/-- A written tag is found, with what follows it. -/
theorem Tag.tag?_line (tag : Tag) (rest : List Char) :
    tag? (tag.name ++ ' ' :: '=' :: ' ' :: (inQuotes tag.text ++ rest)) =
      some (tag.name, tag.text, rest) := by
  have hquote : tag.first ≠ '"' :=
    Text.ne_of_class (tag.isTagRest_name _ List.mem_cons_self) (by decide)
  have hname : dropQuote (tag.name ++ ' ' :: '=' :: ' ' :: (inQuotes tag.text ++ rest)) =
      tag.first :: (tag.rest ++ ' ' :: '=' :: ' ' :: (inQuotes tag.text ++ rest)) := by
    apply dropQuote_of_ne
    exact fun hmem => hquote (Option.some.inj hmem)
  have htake : (tag.rest ++ ' ' :: '=' :: ' ' :: (inQuotes tag.text ++ rest)).takeWhile
      isTagRest = tag.rest := by
    rw [List.takeWhile_append_of_pos tag.isTagRest_rest, List.takeWhile_cons_of_neg (by decide),
      List.append_nil]
  have hdrop : (tag.rest ++ ' ' :: '=' :: ' ' :: (inQuotes tag.text ++ rest)).dropWhile
      isTagRest = ' ' :: '=' :: ' ' :: (inQuotes tag.text ++ rest) := by
    rw [List.dropWhile_append_of_pos tag.isTagRest_rest, List.dropWhile_cons_of_neg (by decide)]
  have hequals : (dropQuote (' ' :: '=' :: ' ' :: (inQuotes tag.text ++ rest))).dropWhile isGap =
      '=' :: ' ' :: (inQuotes tag.text ++ rest) := rfl
  have hopen : (' ' :: (inQuotes tag.text ++ rest)).dropWhile isGap =
      '"' :: (tag.text ++ '"' :: rest) := by
    simp [inQuotes, isGap]
  have htext : ∀ c ∈ tag.text, (c != '"' && c != '\n') = true := by
    intro c hc
    simp [(tag.isQuotable_text c hc).1, (tag.isQuotable_text c hc).2.2]
  rw [tag?, hname]
  simp only [tag.isIdentStart_first, htake, hdrop, hequals, hopen,
    List.takeWhile_append_of_pos htext, List.dropWhile_append_of_pos htext]
  simp [name]

/-! ## Walking over tags -/

/-- A character that begins no tag. -/
theorem tagsFrom_cons {c : Char} (hstart : Text.isIdentStart c = false) (hquote : c ≠ '"')
    (free : Bool) (rest : List Char) :
    tagsFrom free 0 (c :: rest) = tagsFrom (mayPrecedeTag c) 0 rest := by
  have hnone : tag? (c :: rest) = none := by
    have hdrop : dropQuote (c :: rest) = c :: rest :=
      dropQuote_of_ne fun hmem => hquote (Option.some.inj hmem)
    rw [tag?, hdrop]
    simp [hstart]
  rw [tagsFrom, hnone]
  cases free <;> rfl

/-- Characters of a tag that was found are passed over. -/
theorem tagsFrom_skip (free : Bool) (front : List Char) (c : Char) (rest : List Char) :
    tagsFrom free (front.length + 1) (front ++ c :: rest) =
      tagsFrom (mayPrecedeTag c) 0 rest := by
  induction front generalizing free with
  | nil => rw [List.nil_append, List.length_nil, tagsFrom]
  | cons d front ih => rw [List.cons_append, List.length_cons, tagsFrom, ih]

/-- The line of a tag. -/
theorem tagsFrom_line (tag : Tag) (rest : List Char) :
    tagsFrom true 0 (tag.line ++ '\n' :: rest) =
      (tag.name, tag.text) :: tagsFrom true 0 rest := by
  have hline : tag.line ++ '\n' :: rest = ' ' :: ' ' :: ' ' :: ' ' ::
      (tag.name ++ ' ' :: '=' :: ' ' :: (inQuotes tag.text ++ '\n' :: rest)) := by
    simp [Tag.line]
  -- Behind the name there is the rest of the tag up to its last quote.
  have hsplit : tag.name ++ ' ' :: '=' :: ' ' :: (inQuotes tag.text ++ '\n' :: rest) =
      tag.first :: ((tag.rest ++ ' ' :: '=' :: ' ' :: '"' :: tag.text) ++ '"' :: '\n' :: rest) := by
    simp [Tag.name, inQuotes]
  have hlength : ((tag.rest ++ ' ' :: '=' :: ' ' :: '"' :: tag.text) ++
      '"' :: '\n' :: rest).length - ('\n' :: rest).length =
        (tag.rest ++ ' ' :: '=' :: ' ' :: '"' :: tag.text).length + 1 := by
    simp only [List.length_append, List.length_cons]
    omega
  have hfound := tag.tag?_line ('\n' :: rest)
  rw [hline]
  iterate 4 rw [tagsFrom_cons (by decide) (by decide)]
  rw [hsplit] at hfound ⊢
  rw [tagsFrom, show mayPrecedeTag ' ' = true from by decide, if_pos rfl, hfound]
  simp only []
  rw [hlength, tagsFrom_skip, tagsFrom_cons (by decide) (by decide)]
  rfl

/-- The lines of tags. -/
theorem tagsFrom_unlines (tags : List Tag) (rest : List Char) :
    tagsFrom true 0 (unlines (tags.map Tag.line) ++ rest) =
      tags.map (fun tag => (tag.name, tag.text)) ++ tagsFrom true 0 rest := by
  induction tags with
  | nil => rfl
  | cons tag tags ih =>
    rw [List.map_cons, unlines_cons, List.append_assoc, List.cons_append, tagsFrom_line, ih]
    rfl

end Schematic.Hcl
