import Schematic.Proofs.Hcl.Header

/-!
# The headers of a text

A header is looked for at the start of every line, by a reader that goes through the text one
character at a time and passes over what it has found. What it finds is told here without the
reader: a heading is made of gaps, the keyword and quoted labels, and the headers of a text are
its headings at the starts of lines with a brace behind them. No heading holds a line feed, so none
is passed over with another one.

## Main definitions

- `QuotedLabels` — labels in quotes, with gaps around them
- `IsHeading` — what stands in front of the brace of a header
- `StandsIn` — a header of a keyword at its place in a text

## Main statements

- `labels?_eq_some_iff`, `header?_eq_some_iff` — what the readers of a header accept
- `mem_headers_iff` — the headers that are found are those that stand in the text
- `pairwise_headers` — they are found in the order of the text
-/

namespace Schematic.Hcl

variable {keyword cs left : List Char} {labels : List (List Char)}

/-! ## Labels -/

/-- Labels in quotes, with gaps around them. -/
inductive QuotedLabels : List Char → List (List Char) → Prop where
  | nil : QuotedLabels [] []
  | gap {c : Char} {cs : List Char} {labels : List (List Char)} (hc : isGap c = true)
      (h : QuotedLabels cs labels) : QuotedLabels (c :: cs) labels
  | label {label cs : List Char} {labels : List (List Char)} (hquote : '"' ∉ label)
      (hfeed : '\n' ∉ label) (h : QuotedLabels cs labels) :
      QuotedLabels ('"' :: (label ++ '"' :: cs)) (label :: labels)

theorem feed_ne_of_isGap {c : Char} (h : isGap c = true) : c ≠ '\n' := by
  rintro rfl
  cases h

theorem QuotedLabels.feed_not_mem (h : QuotedLabels cs labels) : '\n' ∉ cs := by
  induction h with
  | nil => exact List.not_mem_nil
  | gap hc _ ih => simp [ih, (feed_ne_of_isGap hc).symm]
  | label _ hfeed _ ih => simp [hfeed, ih]

/-- A label ends at its next quote, and no line feed stands in front of that. -/
theorem exists_of_labelRest?_eq_some {done : List Char} {found : List (List Char) × List Char}
    (h : labelRest? done cs = some found) : ∃ label rest more, '"' ∉ label ∧ '\n' ∉ label ∧
      cs = label ++ '"' :: rest ∧ labels? rest = some (more, found.2) ∧
      found.1 = (done.reverse ++ label) :: more := by
  induction cs generalizing done with
  | nil => cases h
  | cons c cs ih =>
    by_cases hquote : c = '"'
    · subst hquote
      rw [labelRest?] at h
      obtain ⟨⟨more, left⟩, hmore, rfl⟩ := Option.map_eq_some_iff.mp h
      exact ⟨[], cs, more, List.not_mem_nil, List.not_mem_nil, rfl, hmore, by simp⟩
    · by_cases hfeed : c = '\n'
      · subst hfeed
        cases h
      · rw [labelRest?] at h
        · obtain ⟨label, rest, more, hq, hf, rfl, hmore, hfound⟩ := ih h
          refine ⟨c :: label, rest, more, ?_, ?_, rfl, hmore, by simp [hfound]⟩
          · simp [hq, Ne.symm hquote]
          · simp [hf, Ne.symm hfeed]
        · exact hquote
        · exact hfeed

/-- What the reader of labels accepts, and where it stops. -/
theorem labels?_eq_some_iff : labels? cs = some (labels, left) ↔
    ∃ quoted, QuotedLabels quoted labels ∧ cs = quoted ++ '{' :: left := by
  constructor
  · intro h
    induction hlength : cs.length using Nat.strongRecOn generalizing cs labels with
    | ind n ih =>
      subst hlength
      cases cs with
      | nil => cases h
      | cons c rest =>
        by_cases hbrace : c = '{'
        · subst hbrace
          obtain ⟨rfl, rfl⟩ := Prod.mk.inj (Option.some.inj h)
          exact ⟨[], .nil, rfl⟩
        · by_cases hquote : c = '"'
          · subst hquote
            obtain ⟨label, after, more, hq, hf, rfl, hmore, rfl⟩ :=
              exists_of_labelRest?_eq_some h
            obtain ⟨quoted, hquoted, rfl⟩ := ih after.length (by simp; omega) hmore rfl
            exact ⟨_, .label hq hf hquoted, by simp⟩
          · rw [labels?] at h
            · split at h
              · next hgap =>
                obtain ⟨quoted, hquoted, rfl⟩ := ih rest.length (by simp) h rfl
                exact ⟨c :: quoted, .gap hgap hquoted, rfl⟩
              · cases h
            · exact hbrace
            · exact hquote
  · rintro ⟨quoted, hquoted, rfl⟩
    induction hquoted with
    | nil => rw [List.nil_append, labels?]
    | @gap c _ _ hc _ ih =>
      rw [List.cons_append, labels?, if_pos hc, ih]
      · rintro rfl
        cases hc
      · rintro rfl
        cases hc
    | label hquote hfeed _ ih =>
      rw [List.cons_append, List.append_assoc, List.cons_append, labels?,
        labelRest?_append hquote hfeed, ih]
      rfl

/-! ## Headings -/

/-- What stands in front of the brace of a header: gaps, the keyword and the labels. -/
def IsHeading (keyword : List Char) (labels : List (List Char)) (heading : List Char) : Prop :=
  ∃ lead quoted, heading = lead ++ (keyword ++ quoted) ∧ (∀ c ∈ lead, isGap c = true) ∧
    QuotedLabels quoted labels

theorem IsHeading.feed_not_mem {heading : List Char} (h : IsHeading keyword labels heading)
    (hkeyword : IsKeyword keyword) : '\n' ∉ heading := by
  obtain ⟨lead, quoted, rfl, hlead, hquoted⟩ := h
  have hword : '\n' ∉ keyword := Text.not_mem_of_class hkeyword.isIdentRest (by decide)
  have hgaps : '\n' ∉ lead := Text.not_mem_of_class hlead (by decide)
  simp [hgaps, hword, hquoted.feed_not_mem]

/-- Behind the gaps of its line, a header begins with its keyword. -/
theorem header?_append (hkeyword : IsKeyword keyword) {lead rest : List Char}
    (hlead : ∀ c ∈ lead, isGap c = true) :
    header? keyword (lead ++ (keyword ++ rest)) = labels? rest := by
  induction lead with
  | nil =>
    obtain ⟨k, ks, rfl⟩ := List.exists_cons_of_ne_nil hkeyword.ne_nil
    rw [List.nil_append, List.cons_append, header?_of_not_gap
      (hkeyword.isGap_eq_false k List.mem_cons_self), ← List.cons_append,
      List.isPrefixOf?_eq_some_iff_append_eq.mpr rfl, Option.bind_some]
  | cons c lead ih =>
    rw [List.forall_mem_cons] at hlead
    rw [List.cons_append, header?_gap hkeyword hlead.1, ih hlead.2]

/-- What the reader of headers accepts, and where it stops. -/
theorem header?_eq_some_iff (hkeyword : IsKeyword keyword) :
    header? keyword cs = some (labels, left) ↔
      ∃ heading, IsHeading keyword labels heading ∧ cs = heading ++ '{' :: left := by
  constructor
  · intro h
    induction cs with
    | nil =>
      obtain ⟨k, ks, rfl⟩ := List.exists_cons_of_ne_nil hkeyword.ne_nil
      cases h
    | cons c rest ih =>
      cases hgap : isGap c with
      | true =>
        rw [header?_gap hkeyword hgap] at h
        obtain ⟨heading, ⟨lead, quoted, rfl, hlead, hquoted⟩, rfl⟩ := ih h
        refine ⟨_, ⟨c :: lead, quoted, rfl, ?_, hquoted⟩, rfl⟩
        exact List.forall_mem_cons.mpr ⟨hgap, hlead⟩
      | false =>
        rw [header?_of_not_gap hgap] at h
        obtain ⟨after, hprefix, hlabels⟩ := Option.bind_eq_some_iff.mp h
        obtain ⟨quoted, hquoted, rfl⟩ := labels?_eq_some_iff.mp hlabels
        refine ⟨keyword ++ quoted, ⟨[], quoted, rfl, by simp, hquoted⟩, ?_⟩
        rw [List.append_assoc]
        exact (List.append_eq_of_isPrefixOf?_eq_some hprefix).symm
  · rintro ⟨heading, ⟨lead, quoted, rfl, hlead, hquoted⟩, rfl⟩
    rw [List.append_assoc, List.append_assoc, header?_append hkeyword hlead]
    exact labels?_eq_some_iff.mpr ⟨quoted, hquoted, rfl⟩

/-- There is but one heading at the front of a text. -/
theorem IsHeading.unique (hkeyword : IsKeyword keyword) {labels' : List (List Char)}
    {heading heading' left' : List Char} (h : IsHeading keyword labels heading)
    (h' : IsHeading keyword labels' heading')
    (heq : heading ++ '{' :: left = heading' ++ '{' :: left') :
    heading = heading' ∧ labels = labels' := by
  have hread : header? keyword (heading ++ '{' :: left) = some (labels, left) :=
    (header?_eq_some_iff hkeyword).mpr ⟨heading, h, rfl⟩
  have hread' : header? keyword (heading ++ '{' :: left) = some (labels', left') :=
    (header?_eq_some_iff hkeyword).mpr ⟨heading', h', heq⟩
  obtain ⟨rfl, rfl⟩ := Prod.mk.inj (Option.some.inj (hread.symm.trans hread'))
  exact ⟨List.append_cancel_right heq, rfl⟩

/-- What is passed over with a heading holds no line feed. -/
theorem IsHeading.feed_not_mem_take (hkeyword : IsKeyword keyword) {heading : List Char}
    (h : IsHeading keyword labels heading) (left : List Char) :
    '\n' ∉ (heading ++ '{' :: left).take (heading.length + 1) := by
  have htake : (heading ++ '{' :: left).take (heading.length + 1) = heading ++ ['{'] := by
    rw [List.append_cons]
    exact List.take_left' (by simp)
  rw [htake]
  simp [h.feed_not_mem hkeyword]

/-! ## Headers at their places -/

/-- A text behind which a line starts. -/
def StartsLine (front : List Char) : Prop :=
  front = [] ∨ ∃ lines, front = lines ++ ['\n']

/-- A header of a keyword stands at its place in a text: at the start of a line, and with its brace
behind its heading. -/
def StandsIn (keyword cs : List Char) (header : Header) : Prop :=
  ∃ front heading back labels, cs = front ++ (heading ++ '{' :: back) ∧ StartsLine front ∧
    IsHeading keyword labels heading ∧
    header = ⟨front.length, labels.map String.ofList, front.length + heading.length⟩

/-- A header in what is left of a text from some offset on: at the front of it, if a line starts
there, or behind a line end. -/
def StandsFrom (keyword : List Char) (offset : Nat) (starts : Prop) (cs : List Char)
    (header : Header) : Prop :=
  ∃ front heading back labels, cs = front ++ (heading ++ '{' :: back) ∧
    (front = [] ∧ starts ∨ ∃ lines, front = lines ++ ['\n']) ∧ IsHeading keyword labels heading ∧
    header = ⟨offset + front.length, labels.map String.ofList,
      offset + front.length + heading.length⟩

theorem standsIn_iff_standsFrom {header : Header} :
    StandsIn keyword cs header ↔ StandsFrom keyword 0 True cs header := by
  simp [StandsIn, StandsFrom, StartsLine]

theorem standsFrom_congr {offset : Nat} {starts starts' : Prop} (h : starts ↔ starts')
    {header : Header} : StandsFrom keyword offset starts cs header ↔
      StandsFrom keyword offset starts' cs header := by
  rw [StandsFrom, StandsFrom, h]

/-- One step through the text: a header stands at its front or in the rest. -/
theorem standsFrom_cons {offset : Nat} {starts : Prop} {c : Char} {rest : List Char}
    {header : Header} : StandsFrom keyword offset starts (c :: rest) header ↔
      (starts ∧ ∃ heading back labels, c :: rest = heading ++ '{' :: back ∧
        IsHeading keyword labels heading ∧
        header = ⟨offset, labels.map String.ofList, offset + heading.length⟩) ∨
      StandsFrom keyword (offset + 1) (c = '\n') rest header := by
  constructor
  · rintro ⟨front, heading, back, labels, heq, hfront, hheading, rfl⟩
    cases front with
    | nil =>
      rcases hfront with ⟨-, hstarts⟩ | ⟨lines, hlines⟩
      · exact .inl ⟨hstarts, heading, back, labels, heq, hheading, rfl⟩
      · exact absurd hlines (by simp)
    | cons d front =>
      obtain ⟨rfl, rfl⟩ := List.cons.inj heq
      refine .inr ⟨front, heading, back, labels, rfl, ?_, hheading, by simp; omega⟩
      rcases hfront with ⟨hnil, -⟩ | ⟨lines, hlines⟩
      · cases hnil
      · cases lines with
        | nil =>
          obtain ⟨rfl, rfl⟩ := List.cons.inj hlines
          exact .inl ⟨rfl, rfl⟩
        | cons e lines => exact .inr ⟨lines, (List.cons.inj hlines).2⟩
  · rintro (⟨hstarts, heading, back, labels, heq, hheading, rfl⟩ |
      ⟨front, heading, back, labels, rfl, hfront, hheading, rfl⟩)
    · exact ⟨[], heading, back, labels, heq, .inl ⟨rfl, hstarts⟩, hheading, rfl⟩
    · refine ⟨c :: front, heading, back, labels, rfl, .inr ?_, hheading, by simp; omega⟩
      rcases hfront with ⟨rfl, rfl⟩ | ⟨lines, rfl⟩
      · exact ⟨[], rfl⟩
      · exact ⟨c :: lines, rfl⟩

/-- A step through the text finds the header at its front. -/
theorem headerAt?_eq_some_iff (hkeyword : IsKeyword keyword) {atLineStart : Bool} :
    headerAt? keyword atLineStart cs = some (labels, left) ↔ atLineStart = true ∧
      ∃ heading, IsHeading keyword labels heading ∧ cs = heading ++ '{' :: left := by
  cases atLineStart with
  | false => simp [headerAt?]
  | true => simp [headerAt?, header?_eq_some_iff hkeyword]

/-- Going through a text finds the headers that stand in it. What is passed over is the rest of a
heading that was found, and hence without a line feed. -/
theorem mem_headersFrom_iff (hkeyword : IsKeyword keyword) {offset skipped : Nat}
    {atLineStart : Bool} (hskipped : '\n' ∉ cs.take skipped) {header : Header} :
    header ∈ headersFrom keyword offset atLineStart skipped cs ↔
      StandsFrom keyword offset (skipped = 0 ∧ atLineStart = true) cs header := by
  induction cs generalizing offset skipped atLineStart with
  | nil =>
    rw [headersFrom]
    constructor
    · exact fun h => absurd h List.not_mem_nil
    · rintro ⟨front, heading, back, labels, heq, -⟩
      simp at heq
  | cons c rest ih =>
    rw [standsFrom_cons]
    cases skipped with
    | succ skipped =>
      rw [List.take_succ_cons, List.mem_cons, not_or] at hskipped
      rw [headersFrom, ih hskipped.2]
      simp only [Nat.add_one_ne_zero, false_and, false_or, beq_iff_eq]
      exact standsFrom_congr (by simp [Ne.symm hskipped.1])
    | zero =>
      rw [headersFrom]
      split
      · next labels left hsome =>
        obtain ⟨hstart, heading, hheading, heq⟩ := (headerAt?_eq_some_iff hkeyword).mp hsome
        have hlength : rest.length + 1 - left.length = heading.length + 1 := by
          have := congrArg List.length heq
          simp only [List.length_cons, List.length_append] at this
          omega
        have hpassed := hheading.feed_not_mem_take hkeyword left
        rw [← heq, List.take_succ_cons, List.mem_cons, not_or] at hpassed
        rw [hlength, List.mem_cons, Nat.add_sub_cancel, ih hpassed.2]
        apply or_congr
        · constructor
          · rintro rfl
            exact ⟨⟨rfl, hstart⟩, heading, left, labels, heq, hheading, rfl⟩
          · rintro ⟨-, other, back, labels', heq', hother, rfl⟩
            obtain ⟨rfl, rfl⟩ := hheading.unique hkeyword hother (heq.symm.trans heq')
            rfl
        · exact standsFrom_congr (by simp [Ne.symm hpassed.1])
      · next hnone =>
        have hfront : ¬((0 = 0 ∧ atLineStart = true) ∧ ∃ heading back labels,
            c :: rest = heading ++ '{' :: back ∧ IsHeading keyword labels heading ∧
            header = ⟨offset, labels.map String.ofList, offset + heading.length⟩) := by
          rintro ⟨⟨-, hstart⟩, heading, back, labels, heq, hheading, -⟩
          rw [(headerAt?_eq_some_iff hkeyword).mpr ⟨hstart, heading, hheading, heq⟩] at hnone
          cases hnone
        rw [ih (by simp), or_iff_right hfront]
        exact standsFrom_congr (by simp)

/-- The headers that are found are those that stand in the text. -/
theorem mem_headers_iff (hkeyword : IsKeyword keyword) {header : Header} :
    header ∈ headers keyword cs ↔ StandsIn keyword cs header := by
  rw [headers, mem_headersFrom_iff hkeyword (by simp), standsIn_iff_standsFrom]
  exact standsFrom_congr (by simp)

/-! ## Their order -/

theorem le_offset_of_mem_headersFrom {offset skipped : Nat} {atLineStart : Bool}
    {header : Header} (h : header ∈ headersFrom keyword offset atLineStart skipped cs) :
    offset ≤ header.offset := by
  induction cs generalizing offset skipped atLineStart with
  | nil => cases h
  | cons c rest ih =>
    cases skipped with
    | succ skipped => exact Nat.le_of_succ_le (ih h)
    | zero =>
      rw [headersFrom] at h
      split at h
      · rcases List.mem_cons.mp h with rfl | h
        · exact Nat.le_refl _
        · exact Nat.le_of_succ_le (ih h)
      · exact Nat.le_of_succ_le (ih h)

theorem pairwise_headersFrom (keyword cs : List Char) (offset skipped : Nat)
    (atLineStart : Bool) : (headersFrom keyword offset atLineStart skipped cs).Pairwise
      fun first second => first.offset < second.offset := by
  induction cs generalizing offset skipped atLineStart with
  | nil => exact .nil
  | cons c rest ih =>
    cases skipped with
    | succ skipped => exact ih _ _ _
    | zero =>
      rw [headersFrom]
      split
      · exact List.pairwise_cons.mpr ⟨fun _ h => le_offset_of_mem_headersFrom h, ih _ _ _⟩
      · exact ih _ _ _

/-- The headers are found in the order of the text. -/
theorem pairwise_headers (keyword cs : List Char) :
    (headers keyword cs).Pairwise fun first second => first.offset < second.offset :=
  pairwise_headersFrom keyword cs 0 0 true

end Schematic.Hcl
