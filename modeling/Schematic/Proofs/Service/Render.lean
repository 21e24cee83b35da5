import Schematic.Proofs.Document.Nested
import Schematic.Proofs.Document.Validation
import Schematic.Proofs.Drawing.Success
import Schematic.Proofs.Hcl.Interrupted
import Schematic.Service.Render

/-!
# When a text is rendered

A text that is parsed is rendered exactly if its format is known and its tree passes the check.
Drawing itself never fails, as long as no number is too long to be read or written: this concerns
the integers of the trees and, as the details of variables are read again from the text of a
configuration, the runs of digits in that text without its comments. The text is parsed once more to
be rendered, further down, and has to be nested so little that there is room for it there.

## Main definitions

- `Rendering.IsComplete` — what an answer holds, with a diagram or without
- `IsRefused` — a well-formed document without a diagram

## Main statements

- `exists_draw_eq_ok` — documents of a known format are drawn
- `render_success_iff` — which texts are rendered, and what the answer then holds
- `not_render_success_iff_of_hasShortRuns` — neither the comments nor the nesting can be left out
-/

namespace Schematic

open Hcl Value

/-! ## Drawing -/

/-- The details of the variables of a document can be read and written. -/
theorem exists_inputVariables_eq_ok {doc : Document} (htree : doc.root.isWritable = true)
    (hdigits : doc.source = .hcl → HasShortRuns (withoutComments doc.text.toList)) :
    ∃ found, Drawing.Terraform.inputVariables doc = .ok found ∧ AreWritable found := by
  unfold Drawing.Terraform.inputVariables
  split
  · next hsource =>
    obtain ⟨found, hfound, hwritable⟩ := exists_variableDetails_eq_ok (hdigits hsource)
    rw [hfound]
    refine ⟨_, rfl, ?_⟩
    intro e he
    obtain ⟨declared, -, rfl⟩ := List.mem_map.mp he
    show ((Entries.get? declared.1 found).getD (.map [])).isWritable = true
    -- A variable without details is drawn with none.
    cases hget : Entries.get? declared.1 found with
    | none => rfl
    | some v => exact hwritable _ (Entries.mem_of_get?_eq_some hget)
  · refine ⟨_, rfl, ?_⟩
    intro e he
    exact isWritable_of_mem_getEntries htree he

/-- A document of a known format is drawn, whatever the shape of its trees. -/
theorem exists_draw_eq_ok {doc : Document} (hformat : doc.format ≠ .unknown)
    (htree : doc.root.isWritable = true) (hdocuments : ∀ d ∈ doc.documents, d.isWritable = true)
    (hdigits : doc.source = .hcl → HasShortRuns (withoutComments doc.text.toList)) :
    ∃ diagram, draw doc = .ok diagram := by
  have hdrawn : ∃ result, Drawing.drawn? doc = some result ∧ Succeeds result := by
    unfold Drawing.drawn?
    cases hdoc : doc.format with
    | compose => exact ⟨_, rfl, Drawing.Compose.succeeds_draw htree⟩
    | kubernetes =>
      -- Manifests are the documents of the text, or the one tree if there are no others.
      refine ⟨_, rfl, Drawing.Kubernetes.succeeds_draw ?_⟩
      intro d hd
      unfold Drawing.manifests at hd
      split at hd
      · exact hdocuments d hd
      · exact List.mem_singleton.mp hd ▸ htree
    | terraform =>
      obtain ⟨found, hfound, hwritable⟩ := exists_inputVariables_eq_ok htree hdigits
      exact ⟨_, rfl, Drawing.Terraform.succeeds_draw htree hfound hwritable⟩
    | cloudFormation => exact ⟨_, rfl, Drawing.CloudFormation.succeeds_draw htree⟩
    | resourceManager => exact ⟨_, rfl, Drawing.ResourceManager.succeeds_draw htree⟩
    | ibmCloud => exact ⟨_, rfl, Drawing.IbmCloud.succeeds_draw htree⟩
    | unknown => exact absurd hdoc hformat
  obtain ⟨result, hresult, diagram, rfl⟩ := hdrawn
  exact ⟨diagram, by rw [draw, hresult]⟩

/-! ## Parsing -/

theorem text_of_ofValues_eq_ok {room : Room} {text : String} {values : List Value}
    {source : Source} {doc : Document} (h : Parse.ofValues room text values source = .ok doc) :
    doc.text = text := by
  unfold Parse.ofValues at h
  split at h
  · obtain ⟨format, -, h⟩ := exists_of_bind_eq_ok h
    obtain rfl := Except.ok.inj h
    rfl
  · obtain rfl := Except.ok.inj h
    rfl

/-- A document keeps the text that it was read from. -/
theorem text_of_parse_eq_ok {stack : Stack} {text : String} {doc : Document}
    (h : parse stack text = .ok doc) : doc.text = text := by
  unfold parse at h
  split at h
  · cases h
  · split at h
    · obtain ⟨tree, -, h⟩ := exists_of_bind_eq_ok h
      obtain rfl := Except.ok.inj h
      rfl
    · obtain ⟨⟨values, source⟩, -, h⟩ := exists_of_bind_eq_ok h
      exact text_of_ofValues_eq_ok h

theorem isAllBlank_eq_false_of_parse_eq_ok {stack : Stack} {text : String} {doc : Document}
    (h : parse stack text = .ok doc) : Text.isAllBlank text.toList = false := by
  rw [← Bool.not_eq_true]
  intro hblank
  rw [parse, if_pos hblank] at h
  cases h

/-- The rendering of a text with a document. -/
theorem render_of_parse_eq_ok {stack : Stack} {text : String} {doc : Document}
    (h : parse (stack.below 2) text = .ok doc) :
    render stack text =
      if doc.format = .unknown then Rendering.ofUnknown else Rendering.ofDocument doc := by
  rw [render, if_neg (by simp [isAllBlank_eq_false_of_parse_eq_ok h]), h]

/-! ## Answers -/

namespace Rendering

/-- What an answer to a text with a document holds: the markup of the diagram and warnings at most,
or an error and nothing of a diagram. -/
structure IsComplete (r : Rendering) (doc : Document) : Prop where
  of_success : r.success = true →
    (∃ diagram, draw doc = .ok diagram ∧ r.markup? = some diagram.markup) ∧
      r.error? = none ∧ Validation.IsClean r.issues
  of_failure : r.success = false →
    r.markup? = none ∧ r.kind? = none ∧ ∃ e, r.error? = some e ∧ e ≠ ""

variable {r : Rendering}

theorem success_iff : r.success = true ↔ ∃ diagram, r.outcome = .ok diagram := by
  cases h : r.outcome with
  | error e => simp [success, h, Except.toOption]
  | ok diagram => simp [success, h, Except.toOption]

theorem success_eq_false_iff : r.success = false ↔ ∃ e, r.outcome = .error e := by
  cases h : r.outcome with
  | error e => simp [success, h, Except.toOption]
  | ok diagram => simp [success, h, Except.toOption]

/-- An answer without a diagram is complete with an error that says something. -/
theorem isComplete_of_outcome_eq_error {doc : Document} {e : String} (h : r.outcome = .error e)
    (hne : e ≠ "") : r.IsComplete doc where
  of_success := by
    rw [success_iff, h]
    rintro ⟨diagram, ⟨⟩⟩
  of_failure := by
    intro _
    simp [markup?, kind?, error?, h, hne, Except.toOption]

/-- What an answer holds that has a diagram: no error. -/
theorem of_outcome_eq_ok {diagram : Diagram} (h : r.outcome = .ok diagram) :
    r.markup? = some diagram.markup ∧ r.error? = none := by
  simp [markup?, error?, h, Except.toOption]

theorem ne_empty_of_append {front back : String} (h : front ≠ "") : front ++ back ≠ "" := by
  simp [h]

/-- Every error that an answer to a document holds says something. -/
theorem ne_empty_of_ofDocument {doc : Document} {e : String}
    (h : (ofDocument doc).outcome = .error e) : e ≠ "" := by
  unfold ofDocument at h
  simp only at h
  split at h
  · cases hdraw : draw doc with
    | ok diagram => rw [hdraw] at h; cases h
    | error error =>
      rw [hdraw] at h
      obtain rfl := Except.error.inj h
      cases error with
      | unsupported format => exact ne_empty_of_append (by decide)
      | number error => exact ne_empty_of_append (by decide)
  · obtain rfl := Except.error.inj h
    have hfront : toString "Validation failed: " ≠ "" := by decide
    exact ne_empty_of_append hfront

/-- The answer to a document with a diagram: the document is drawn and passed the check. -/
theorem of_ofDocument_success {doc : Document} (h : (ofDocument doc).success = true) :
    (validate doc.root doc.format).valid = true ∧
      (ofDocument doc).outcome = (draw doc).mapError DrawError.message ∧
        (ofDocument doc).issues = (validate doc.root doc.format).issues := by
  rw [success_iff] at h
  unfold ofDocument at h ⊢
  simp only at h ⊢
  split at h
  · next hvalid =>
    rw [if_pos hvalid]
    exact ⟨hvalid, rfl, rfl⟩
  · obtain ⟨diagram, h⟩ := h
    cases h

/-- The answer to a document that is drawn is complete, whether or not it passes the check. -/
theorem isComplete_ofDocument {doc : Document} {diagram : Diagram}
    (hdraw : draw doc = .ok diagram) : (ofDocument doc).IsComplete doc := by
  cases hsuccess : (ofDocument doc).success with
  | false =>
    obtain ⟨e, he⟩ := success_eq_false_iff.mp hsuccess
    exact isComplete_of_outcome_eq_error he (ne_empty_of_ofDocument he)
  | true =>
    obtain ⟨hvalid, houtcome, hissues⟩ := of_ofDocument_success hsuccess
    rw [hdraw] at houtcome
    obtain ⟨hmarkup, herror⟩ := of_outcome_eq_ok houtcome
    refine ⟨fun _ => ⟨⟨diagram, hdraw, hmarkup⟩, herror, ?_⟩, fun h => ?_⟩
    · rw [hissues]
      exact isClean_of_valid hvalid
    · rw [hsuccess] at h
      cases h

/-- A document that is drawn is rendered exactly if it passes the check. -/
theorem ofDocument_success_iff {doc : Document} {diagram : Diagram}
    (hdraw : draw doc = .ok diagram) :
    (ofDocument doc).success = true ↔ IsWellFormed doc.root doc.format := by
  rw [← validate_valid_iff rfl, success_iff]
  unfold ofDocument
  simp only
  split
  · next hvalid =>
    rw [hdraw]
    exact iff_of_true ⟨diagram, rfl⟩ hvalid
  · next hvalid => simp [hvalid]

end Rendering

open Rendering

/-! ## Texts that are refused -/

/-- A text with a document that is well formed, without a number that is too long, and yet without a
diagram. -/
structure IsRefused (stack : Stack) (text : String) (doc : Document) : Prop where
  parse_eq_ok : parse stack text = .ok doc
  isWritable : doc.root.isWritable = true
  areWritable : ∀ d ∈ doc.documents, d.isWritable = true
  hasShortRuns : HasShortRuns text.toList
  format_ne : doc.format ≠ .unknown
  isWellFormed : IsWellFormed doc.root doc.format
  success_eq_false : (render stack text).success = false

theorem IsRefused.not_iff {stack : Stack} {text : String} {doc : Document}
    (h : IsRefused stack text doc) :
    ¬((render stack text).success = true ↔
      doc.format ≠ .unknown ∧ IsWellFormed doc.root doc.format) := by
  rw [h.success_eq_false]
  intro hiff
  exact absurd (hiff.mpr ⟨h.format_ne, h.isWellFormed⟩) (by decide)

/-- The document of a configuration with a comment between the digits of a number. -/
def interruptedDocument (front back : List Char) : Document where
  format := .terraform
  tree := [("variable", .map [("x", named "x")])]
  source := .hcl
  text := String.ofList (interrupted front back)

section Interrupted

variable (stack : Stack) {front back : List Char}
  (hfront : ∀ c ∈ front, Text.isDecimalDigit c = true)
  (hback : ∀ c ∈ back, Text.isDecimalDigit c = true)

include hfront hback

theorem parse_interrupted : parse stack (String.ofList (interrupted front back)) =
    .ok (interruptedDocument front back) := by
  have hblank : Text.isAllBlank (interrupted front back) = false := rfl
  have hblocks : Parse.isBlocks (interrupted front back) = true := rfl
  rw [parse, String.toList_ofList, hblank, hblocks, Parse.ofBlocks, String.toList_ofList,
    configuration_interrupted hfront hback]
  rfl

/-- Such a text has a document but is not rendered if the digits are too many together. -/
theorem render_interrupted (hne : front ≠ []) (hlength : digitLimit < (front ++ back).length) :
    (render stack (String.ofList (interrupted front back))).success = false := by
  have hinput : Drawing.Terraform.inputVariables (interruptedDocument front back) =
      .error (.tooManyDigits (front ++ back).length) := by
    have hdetails := variableDetails_interrupted hfront hback hne hlength
    have hsource : (interruptedDocument front back).source = .hcl := rfl
    have htext : (interruptedDocument front back).text.toList = interrupted front back :=
      String.toList_ofList
    rw [Drawing.Terraform.inputVariables, if_pos hsource, htext, hdetails]
    rfl
  have hdraw : draw (interruptedDocument front back) =
      .error (.number (.tooManyDigits (front ++ back).length)) := by
    have hdrawn : Drawing.Terraform.draw (interruptedDocument front back) =
        .error (.tooManyDigits (front ++ back).length) := by
      rw [Drawing.Terraform.draw, hinput]
      rfl
    rw [draw, Drawing.drawn?]
    simp only [interruptedDocument] at hdrawn ⊢
    rw [hdrawn]
  rw [render_of_parse_eq_ok (parse_interrupted _ hfront hback),
    if_neg (by simp [interruptedDocument]), ← Bool.not_eq_true]
  intro h
  -- A success would be a diagram, but drawing has failed.
  have houtcome := (of_ofDocument_success h).2.1
  rw [hdraw] at houtcome
  obtain ⟨diagram, hdiagram⟩ := success_iff.mp h
  rw [houtcome] at hdiagram
  cases hdiagram

/-- The comment hides the length of the number. -/
theorem isRefused_interrupted (hne : front ≠ []) (hfrontLength : front.length ≤ digitLimit)
    (hbackLength : back.length ≤ digitLimit) (hlength : digitLimit < (front ++ back).length) :
    IsRefused stack (String.ofList (interrupted front back)) (interruptedDocument front back) where
  parse_eq_ok := parse_interrupted stack hfront hback
  isWritable := rfl
  areWritable := by
    intro d hd
    cases hd
  hasShortRuns := by
    rw [String.toList_ofList]
    exact hasShortRuns_interrupted hfrontLength hbackLength
  format_ne := by simp [interruptedDocument]
  isWellFormed := trivial
  success_eq_false := render_interrupted stack hfront hback hne hlength

end Interrupted

/-- A text that is nested too deeply to be rendered is answered with an error. -/
theorem exists_outcome_eq_error_of_isTooDeep {stack : Stack} {text : String} {e : LoadError}
    (hblank : Text.isAllBlank text.toList = false) (he : IsTooDeep e)
    (h : parse (stack.below 2) text = .error e) :
    ∃ message, (render stack text).outcome = .error message ∧ message ≠ "" := by
  have hmalformed : toString "Unsupported or malformed input: " ≠ "" := by decide
  have hunexpected : toString "Unexpected error: " ≠ "" := by decide
  rw [render, if_neg (by simp [hblank]), h]
  cases he with
  | read source => exact ⟨_, rfl, ne_empty_of_append hmalformed⟩
  | written => exact ⟨_, rfl, ne_empty_of_append hunexpected⟩

/-- There is room to parse the text, and none where it is parsed to be rendered. -/
theorem isRefused_resourceText {stack : Stack} {n : Nat}
    (hparse : n + 2 < (stack.room 1).json (resourceText n))
    (hrender : (stack.room 3).json (resourceText n) ≤ n + 2) (hlength : 2 * n + 17 ≤ digitLimit) :
    IsRefused stack (resourceText n) (resourceDocument n) where
  parse_eq_ok := by rw [parse_resourceText, if_pos hparse]
  isWritable := isWritable_resourceDocument n
  areWritable := by
    intro d hd
    cases hd
  hasShortRuns := by
    apply hasShortRuns_of_length_le
    rwa [length_resourceText]
  format_ne := by simp [resourceDocument]
  isWellFormed := trivial
  success_eq_false := by
    have hbelow : parse (stack.below 2) (resourceText n) = .error (Load.tooDeep .json) := by
      rw [parse_resourceText, if_neg]
      exact Nat.not_lt.mpr hrender
    obtain ⟨message, houtcome, -⟩ := exists_outcome_eq_error_of_isTooDeep
      (isAllBlank_resourceText n) (.read .json) hbelow
    exact success_eq_false_iff.mpr ⟨message, houtcome⟩

/-! ## Rendering -/

/-- A text with a document is rendered exactly if there is room for it where it is parsed to be
rendered, its format is known and its tree is well formed, as long as its numbers can be read and
written. Then the answer holds the markup of the diagram and warnings at most; otherwise it holds an
error and nothing of a diagram. -/
theorem render_success_iff {stack : Stack} {text : String} {doc : Document}
    (hparse : parse stack text = .ok doc) (htree : doc.root.isWritable = true)
    (hdocuments : ∀ d ∈ doc.documents, d.isWritable = true)
    (hdigits : doc.source = .hcl → HasShortRuns (withoutComments text.toList)) :
    ((render stack text).success = true ↔
      parse (stack.below 2) text = .ok doc ∧ doc.format ≠ .unknown ∧
        IsWellFormed doc.root doc.format) ∧
      (parse (stack.below 2) text = .ok doc ∨
        ∃ e, IsTooDeep e ∧ parse (stack.below 2) text = .error e) ∧
      (render stack text).IsComplete doc := by
  rcases sameUnless_parse_below stack 2 text with hbelow | ⟨e, hbelow, he⟩
  · rw [hparse] at hbelow
    rw [← text_of_parse_eq_ok hparse] at hdigits
    rw [render_of_parse_eq_ok hbelow, and_iff_right hbelow]
    by_cases hunknown : doc.format = .unknown
    · -- A text of no known format is answered with an error right away.
      rw [if_pos hunknown]
      refine ⟨?_, .inl hbelow, isComplete_of_outcome_eq_error rfl (by decide)⟩
      exact iff_of_false (by decide) fun h => h.1 hunknown
    · -- Otherwise there is a diagram in any case, and the check decides.
      obtain ⟨diagram, hdraw⟩ := exists_draw_eq_ok hunknown htree hdocuments hdigits
      rw [if_neg hunknown, ofDocument_success_iff hdraw, and_iff_right hunknown]
      exact ⟨Iff.rfl, .inl hbelow, isComplete_ofDocument hdraw⟩
  · -- There was room for the text where it was parsed first, and there is none further down.
    obtain ⟨message, houtcome, hne⟩ := exists_outcome_eq_error_of_isTooDeep
      (isAllBlank_eq_false_of_parse_eq_ok hparse) he hbelow
    refine ⟨?_, .inr ⟨e, he, hbelow⟩, isComplete_of_outcome_eq_error houtcome hne⟩
    rw [success_iff, houtcome, hbelow]
    simp

theorem render_success_iff_interrupted :
    parse .standard (String.ofList (interrupted ['1'] ['2'])) =
        .ok (interruptedDocument ['1'] ['2']) ∧
      (interruptedDocument ['1'] ['2']).root.isWritable = true ∧
      HasShortRuns (withoutComments (String.ofList (interrupted ['1'] ['2'])).toList) ∧
      (render .standard (String.ofList (interrupted ['1'] ['2']))).success = true := by
  have hone : ∀ c ∈ ['1'], Text.isDecimalDigit c = true := by decide
  have htwo : ∀ c ∈ ['2'], Text.isDecimalDigit c = true := by decide
  have hparse (stack : Stack) := parse_interrupted stack hone htwo
  have hshort : HasShortRuns
      (withoutComments (String.ofList (interrupted ['1'] ['2'])).toList) :=
    hasShortRuns_of_length_le (by decide +kernel)
  have hiff := (render_success_iff (hparse .standard) rfl (by intro d hd; cases hd)
    fun _ => hshort).1
  exact ⟨hparse _, rfl, hshort, hiff.mpr ⟨hparse _, by decide, trivial⟩⟩

/-- Short runs of digits in the text itself are not enough, as a comment may separate digits that
are read as one number. Nor is it enough that there is a document, as there may be too little room
to parse the text once more where it is rendered. -/
theorem not_render_success_iff_of_hasShortRuns :
    (¬∀ (text : String) (doc : Document), parse .standard text = .ok doc →
      doc.root.isWritable = true → (∀ d ∈ doc.documents, d.isWritable = true) →
        HasShortRuns text.toList →
          ((render .standard text).success = true ↔
            doc.format ≠ .unknown ∧ IsWellFormed doc.root doc.format)) ∧
    ¬∀ (text : String) (doc : Document), parse .standard text = .ok doc →
      doc.root.isWritable = true → (∀ d ∈ doc.documents, d.isWritable = true) →
        HasShortRuns text.toList →
          (doc.source = .hcl → HasShortRuns (withoutComments text.toList)) →
          ((render .standard text).success = true ↔
            doc.format ≠ .unknown ∧ IsWellFormed doc.root doc.format) := by
  constructor
  · intro h
    -- As many digits as are read in front of the comment, and one more behind it.
    have hones : ∀ c ∈ List.replicate digitLimit '1', Text.isDecimalDigit c = true := by
      intro c hc
      rw [List.eq_of_mem_replicate hc]
      decide
    have hone : ∀ c ∈ ['1'], Text.isDecimalDigit c = true := by decide
    have hne : List.replicate digitLimit '1' ≠ [] := by
      rw [Ne, List.replicate_eq_nil_iff]
      decide
    have hlength : digitLimit < (List.replicate digitLimit '1' ++ ['1']).length := by
      rw [List.length_append, List.length_replicate]
      exact Nat.lt_succ_self _
    have hrefused := isRefused_interrupted .standard hones hone hne
      (Nat.le_of_eq List.length_replicate) (by decide) hlength
    exact hrefused.not_iff (h _ _ hrefused.parse_eq_ok hrefused.isWritable hrefused.areWritable
      hrefused.hasShortRuns)
  · intro h
    -- Lists that take all the room there is for parsing alone.
    have hrefused : IsRefused .standard (resourceText 989) (resourceDocument 989) :=
      isRefused_resourceText (by decide) (by decide) (by decide)
    exact hrefused.not_iff (h _ _ hrefused.parse_eq_ok hrefused.isWritable hrefused.areWritable
      hrefused.hasShortRuns (by rintro ⟨⟩))

end Schematic
