import Schematic.Proofs.Hcl.Padded
import Schematic.Proofs.Hcl.Tags

/-!
# Tags and text without quotes

A tag ends with a quote. So the search for tags finds none in text without quotes, and with such
text put at the end of a line it finds what it found before.

## Main definitions

- `EndsTag` — text behind which no tag that has begun goes on

## Main statements

- `tagsFrom_append` — the search in front of texts that are searched alike
- `tags_remark` — the tags of a text with a comment without quotes in it
-/

namespace Schematic.Hcl

/-! ## Reading a tag -/

/-- The name of a tag at the front of a text, with or without quotes, and what follows. -/
def tagName? (cs : List Char) : Option (List Char × List Char) :=
  match dropQuote cs with
  | c :: rest =>
    if Text.isIdentStart c then
      some (c :: rest.takeWhile isTagRest, dropQuote (rest.dropWhile isTagRest))
    else none
  | [] => none

/-- Whether a character belongs to the value of a tag. -/
def isTagValue (c : Char) : Bool :=
  c != '"' && c != '\n'

/-- The value of a tag behind its opening quote, and what follows its closing quote. -/
def tagValue? (cs : List Char) : Option (List Char × List Char) :=
  match cs.dropWhile isTagValue with
  | '"' :: left => some (cs.takeWhile isTagValue, left)
  | _ => none

/-- A tag is read in steps. -/
theorem tag?_eq (cs : List Char) : tag? cs =
    (tagName? cs).bind fun found =>
      (afterGap? '=' found.2).bind fun after =>
        (afterGap? '"' after).bind fun quoted =>
          (tagValue? quoted).map fun value => (found.1, value.1, value.2) := by
  rw [tag?, tagName?]
  cases hname : dropQuote cs with
  | nil => rfl
  | cons c rest =>
    simp only
    cases hstart : Text.isIdentStart c with
    | false => rfl
    | true =>
      rw [if_pos rfl, if_neg (by decide), Option.bind_some]
      split
      · next after hequals =>
        rw [afterGap?_eq_some hequals, Option.bind_some]
        split
        · next quoted hquote =>
          have hvalue : isTagValue = fun c => c != '"' && c != '\n' := rfl
          rw [afterGap?_eq_some hquote, Option.bind_some, tagValue?, hvalue]
          split <;> simp [*]
        · next hnone =>
          rw [afterGap?_eq_none fun quoted => hnone quoted]
          rfl
      · next hnone =>
        rw [afterGap?_eq_none fun after => hnone after]
        rfl

/-! ## What follows a tag -/

theorem dropQuote_append (cs : List Char) {rest : List Char} (h : '"' ∉ rest.head?) :
    dropQuote (cs ++ rest) = dropQuote cs ++ rest := by
  cases cs with
  | nil => exact dropQuote_of_ne h
  | cons c cs =>
    by_cases hc : c = '"'
    · subst hc
      rfl
    · have hhead : '"' ∉ (c :: cs).head? := fun hmem => hc (Option.some.inj hmem)
      rw [dropQuote_of_ne hhead]
      exact dropQuote_of_ne hhead

theorem suffix_dropQuote (cs : List Char) : dropQuote cs <:+ cs := by
  unfold dropQuote
  split
  · exact List.suffix_cons _ _
  · exact List.suffix_refl _

/-- Text behind which no tag that has begun goes on. -/
structure EndsTag (rest : List Char) : Prop where
  stop : ∀ c ∈ rest.head?, isTagRest c = false
  unquoted : '"' ∉ rest.head?
  equals : afterGap? '=' rest = none
  quote : afterGap? '"' rest = none
  value : tagValue? rest = none

theorem EndsTag.tagName?_append {rest : List Char} (h : EndsTag rest) (cs : List Char) :
    tagName? (cs ++ rest) = (tagName? cs).map fun found => (found.1, found.2 ++ rest) := by
  rw [tagName?, tagName?, dropQuote_append cs h.unquoted]
  cases dropQuote cs with
  | nil =>
    cases rest with
    | nil => rfl
    | cons c rest =>
      have hstart : ¬Text.isIdentStart c = true := by
        intro hstart
        have hrest := isTagRest_of_isIdentStart hstart
        rw [h.stop c rfl] at hrest
        cases hrest
      exact if_neg hstart
  | cons c cs =>
    rw [List.cons_append]
    simp only [Text.takeWhile_append_of_stop cs h.stop, Text.dropWhile_append_of_stop cs h.stop,
      dropQuote_append _ h.unquoted]
    split <;> rfl

theorem tagValue?_cons {c : Char} (h : isTagValue c = true) (cs : List Char) :
    tagValue? (c :: cs) = (tagValue? cs).map fun value => (c :: value.1, value.2) := by
  rw [tagValue?, tagValue?, List.dropWhile_cons_of_pos h, List.takeWhile_cons_of_pos h]
  split <;> rfl

theorem EndsTag.tagValue?_append {rest : List Char} (h : EndsTag rest) (cs : List Char) :
    tagValue? (cs ++ rest) = (tagValue? cs).map fun value => (value.1, value.2 ++ rest) := by
  induction cs with
  | nil => exact h.value
  | cons c cs ih =>
    cases hc : isTagValue c with
    | true =>
      rw [List.cons_append, tagValue?_cons hc, tagValue?_cons hc, ih, Option.map_map,
        Option.map_map]
      rfl
    | false =>
      have hneg : ¬isTagValue c = true := by simp [hc]
      rw [tagValue?, tagValue?, List.cons_append, List.dropWhile_cons_of_neg hneg,
        List.dropWhile_cons_of_neg hneg, List.takeWhile_cons_of_neg hneg,
        List.takeWhile_cons_of_neg hneg]
      by_cases hquote : c = '"'
      · subst hquote
        rfl
      · simp [hquote]

/-- A tag is read from the front, whatever follows it. -/
theorem EndsTag.tag?_append {rest : List Char} (h : EndsTag rest) (cs : List Char) :
    tag? (cs ++ rest) =
      (tag? cs).map fun found => (found.1, found.2.1, found.2.2 ++ rest) := by
  rw [tag?_eq, tag?_eq, h.tagName?_append]
  cases tagName? cs with
  | none => rfl
  | some found =>
    simp only [Option.map_some, Option.bind_some, afterGap?_append h.equals]
    cases afterGap? '=' found.2 with
    | none => rfl
    | some after =>
      simp only [Option.map_some, Option.bind_some, afterGap?_append h.quote]
      cases afterGap? '"' after with
      | none => rfl
      | some quoted =>
        simp only [Option.map_some, Option.bind_some, h.tagValue?_append]
        cases tagValue? quoted <;> rfl

/-! ## Where a tag ends -/

theorem suffix_of_tagName? {c : Char} {rest name left : List Char}
    (h : tagName? (c :: rest) = some (name, left)) : left <:+ rest := by
  rw [tagName?] at h
  split at h
  · next d more hmore =>
    split at h
    · obtain ⟨-, rfl⟩ := Prod.mk.inj (Option.some.inj h)
      have hsuffix : more <:+ rest := by
        have hquote := hmore ▸ suffix_dropQuote (c :: rest)
        rcases List.suffix_cons_iff.mp hquote with heq | hrest
        · exact (List.cons.inj heq).2 ▸ List.suffix_refl _
        · exact (List.suffix_cons d more).trans hrest
      exact (suffix_dropQuote _).trans ((List.dropWhile_suffix _).trans hsuffix)
    · cases h
  · cases h

theorem suffix_of_tagValue? {cs value left : List Char} (h : tagValue? cs = some (value, left)) :
    '"' :: left <:+ cs := by
  rw [tagValue?] at h
  split at h
  · next heq =>
    obtain ⟨-, rfl⟩ := Prod.mk.inj (Option.some.inj h)
    exact heq ▸ List.dropWhile_suffix _
  · cases h

/-- A tag ends with a quote. -/
theorem suffix_of_tag? {c : Char} {rest name value left : List Char}
    (h : tag? (c :: rest) = some (name, value, left)) : '"' :: left <:+ rest := by
  rw [tag?_eq] at h
  obtain ⟨found, hname, h⟩ := Option.bind_eq_some_iff.mp h
  obtain ⟨after, hequals, h⟩ := Option.bind_eq_some_iff.mp h
  obtain ⟨quoted, hquote, h⟩ := Option.bind_eq_some_iff.mp h
  obtain ⟨last, hvalue, heq⟩ := Option.map_eq_some_iff.mp h
  obtain ⟨-, heq⟩ := Prod.mk.inj heq
  obtain ⟨-, rfl⟩ := Prod.mk.inj heq
  have hafter := (List.suffix_cons '=' after).trans (suffix_of_afterGap? hequals)
  have hquoted := (List.suffix_cons '"' quoted).trans (suffix_of_afterGap? hquote)
  exact (suffix_of_tagValue? hvalue).trans
    (hquoted.trans (hafter.trans (suffix_of_tagName? hname)))

theorem tag?_of_not_mem {cs : List Char} (h : '"' ∉ cs) : tag? cs = none := by
  cases cs with
  | nil => rfl
  | cons c rest =>
    cases htag : tag? (c :: rest) with
    | none => rfl
    | some found =>
      have hquote := (suffix_of_tag? htag).subset List.mem_cons_self
      exact absurd (List.mem_cons_of_mem c hquote) h

/-! ## Searching for tags -/

theorem tagsFrom_of_none {free : Bool} {c : Char} {rest : List Char}
    (h : free = true → tag? (c :: rest) = none) :
    tagsFrom free 0 (c :: rest) = tagsFrom (mayPrecedeTag c) 0 rest := by
  have hnone : (if free then tag? (c :: rest) else none) = none := by
    split
    · next hfree => exact h hfree
    · rfl
  rw [tagsFrom, hnone]

/-- Behind the quote that ends a tag the search goes on. -/
theorem tagsFrom_of_some {c : Char} {rest name value left : List Char}
    (h : tag? (c :: rest) = some (name, value, left)) :
    tagsFrom true 0 (c :: rest) = (name, value) :: tagsFrom false 0 left := by
  obtain ⟨front, hfront⟩ := suffix_of_tag? h
  have hlength : rest.length - left.length = front.length + 1 := by
    rw [← hfront, List.length_append, List.length_cons]
    omega
  rw [tagsFrom, if_pos rfl, h]
  simp only [hlength]
  rw [← hfront, tagsFrom_skip]
  rfl

/-- The search finds the same in front of texts that are searched alike. -/
theorem tagsFrom_append {tail tail' : List Char} (h : EndsTag tail) (h' : EndsTag tail')
    (heq : ∀ free, tagsFrom free 0 tail = tagsFrom free 0 tail') (free : Bool)
    (front : List Char) : tagsFrom free 0 (front ++ tail) = tagsFrom free 0 (front ++ tail') := by
  -- A tag takes many characters at once, so the induction is on the length.
  induction hn : front.length using Nat.strongRecOn generalizing front free with
  | ind n ih =>
    subst hn
    cases front with
    | nil => exact heq free
    | cons c front =>
      have htail := h.tag?_append (c :: front)
      have htail' := h'.tag?_append (c :: front)
      rw [List.cons_append] at htail htail'
      rw [List.cons_append, List.cons_append]
      by_cases hnone : free = true → tag? (c :: front) = none
      · rw [tagsFrom_of_none, tagsFrom_of_none]
        · exact ih front.length (Nat.lt_succ_self _) _ front rfl
        · exact fun hfree => by rw [htail', hnone hfree]; rfl
        · exact fun hfree => by rw [htail, hnone hfree]; rfl
      · obtain ⟨rfl, hsome⟩ := Classical.not_imp.mp hnone
        obtain ⟨⟨name, value, left⟩, htag⟩ := Option.ne_none_iff_exists'.mp hsome
        rw [htag, Option.map_some] at htail htail'
        have hlt : left.length < (c :: front).length := by
          have hsuffix := (suffix_of_tag? htag).length_le
          rw [List.length_cons] at hsuffix
          rw [List.length_cons]
          omega
        rw [tagsFrom_of_some htail, tagsFrom_of_some htail', ih left.length hlt false left rfl]

/-! ## Text without quotes at the end of a line -/

theorem endsTag_feed (rest : List Char) : EndsTag ('\n' :: rest) where
  stop c hc := Option.some.inj hc ▸ by decide
  unquoted h := absurd (Option.some.inj h) (by decide)
  equals := rfl
  quote := rfl
  value := rfl

/-- In text without quotes no tag begins. -/
theorem tagsFrom_unquoted {cs : List Char} (h : '"' ∉ cs) (rest : List Char) (free : Bool) :
    tagsFrom free 0 (cs ++ '\n' :: rest) = tagsFrom true 0 rest := by
  induction cs generalizing free with
  | nil => exact tagsFrom_cons (by decide) (by decide) free rest
  | cons c cs ih =>
    have hnone : tag? (c :: (cs ++ '\n' :: rest)) = none := by
      rw [← List.cons_append, (endsTag_feed rest).tag?_append, tag?_of_not_mem h]
      rfl
    rw [List.cons_append, tagsFrom_of_none fun _ => hnone,
      ih fun hmem => h (List.mem_cons_of_mem _ hmem)]

/-- A value does not go over the end of a line. -/
theorem tagValue?_eq_none {cs : List Char} (hquote : '"' ∉ cs) (hfeed : '\n' ∉ cs)
    (rest : List Char) : tagValue? (cs ++ '\n' :: rest) = none := by
  have hall : ∀ c ∈ cs, isTagValue c = true := by
    intro c hc
    rw [isTagValue, Bool.and_eq_true, bne_iff_ne, bne_iff_ne]
    exact ⟨fun heq => hquote (heq ▸ hc), fun heq => hfeed (heq ▸ hc)⟩
  rw [tagValue?, List.dropWhile_append_of_pos hall]
  rfl

theorem endsTag_remark (mark : Mark) {text : List Char} (hquote : '"' ∉ text)
    (hfeed : '\n' ∉ text) (rest : List Char) :
    EndsTag (' ' :: (remark mark text ++ '\n' :: rest)) where
  stop c hc := Option.some.inj hc ▸ by decide
  unquoted h := absurd (Option.some.inj h) (by decide)
  equals := by cases mark <;> rfl
  quote := by cases mark <;> rfl
  value := by
    rw [← List.cons_append]
    apply tagValue?_eq_none
    · cases mark <;> simpa [remark, Mark.chars] using hquote
    · cases mark <;> simpa [remark, Mark.chars] using hfeed

/-- A comment without quotes at the end of a line adds no tag and takes none away. -/
theorem tags_remark (mark : Mark) {text : List Char} (hquote : '"' ∉ text) (hfeed : '\n' ∉ text)
    (front rest : List Char) :
    tags (front ++ ' ' :: (remark mark text ++ '\n' :: rest)) = tags (front ++ '\n' :: rest) := by
  have hremark : '"' ∉ ' ' :: remark mark text := by
    cases mark <;> simpa [remark, Mark.chars] using hquote
  have heq (free : Bool) : tagsFrom free 0 (' ' :: (remark mark text ++ '\n' :: rest)) =
      tagsFrom free 0 ('\n' :: rest) := by
    rw [← List.cons_append, tagsFrom_unquoted hremark]
    exact (@tagsFrom_unquoted [] (by simp) rest free).symm
  rw [tags, tags, tagsFrom_append (endsTag_remark mark hquote hfeed rest) (endsTag_feed rest) heq]

end Schematic.Hcl
