import Schematic.Proofs.Document.Room

/-!
# Detection and parsing

Parsing a text tells its format, and so does detection, which is meant to come to the same result
without a document. The two ways differ in one place: parsing takes a text for a configuration only
if it does not begin like a mapping of JSON, and detection does not ask for that. So a JSON text
that holds the keyword of a block in one of its strings is a configuration for detection, whatever
its fields say. Detection has a little more room than parsing, but that makes no difference where
parsing has an answer.

## Main definitions

- `parsedFormat` — the format that parsing tells

## Main statements

- `detect_eq_parsedFormat` — the two ways agree on every text without this ambiguity
- `detect_eq_parsedFormat_iff` — on which texts they agree
- `detect_ne_parsedFormat` — a text on which they do not
-/

namespace Schematic

open Parse

/-- The format that parsing tells: that of the document, and none of a text without a document. -/
def parsedFormat : Except LoadError Document → Format
  | .ok doc => doc.format
  | .error _ => .unknown

/-- A text that begins like a mapping of JSON and holds the keyword of a block. -/
def IsAmbiguous (text : String) : Prop :=
  Hcl.looksLikeHcl text.toList = true ∧ startsMapping text.toList = true

/-- Something stands in a text that begins like a mapping. -/
theorem isAllBlank_eq_false_of_startsMapping {cs : List Char} (h : startsMapping cs = true) :
    Text.isAllBlank cs = false := by
  rw [← Bool.not_eq_true]
  intro hblank
  have hhead : (Text.trimLeft cs).head? = some '{' := by simpa [startsMapping] using h
  have hmem : '{' ∈ cs := (List.dropWhile_suffix _).mem (List.mem_of_head? hhead)
  have hbrace := List.all_eq_true.mp hblank '{' hmem
  exact absurd hbrace (by decide)

/-! ## Texts of values -/

/-- A tree has the same format for both ways, unless writing it down fails. -/
theorem parsedFormat_ofValues {room more : Room} (hroom : room ≤ more) {text : String}
    {values : List Value} {source : Source}
    (h : ∀ fault, ofValues room text values source ≠ .error (.fault fault)) :
    parsedFormat (ofValues room text values source) =
      match values with
      | first :: _ => (Format.ofTree more first (source == .json)).toOption.getD .unknown
      | [] => .unknown := by
  cases values with
  | nil => rfl
  | cons first rest =>
    cases first with
    | map tree =>
      cases hformat : Format.ofTree room (.map tree) (source == .json) with
      | ok format =>
        simp only [ofValues, hformat, (sameUnless_ofTree hroom _ _).eq_ok hformat]
        rfl
      | error e =>
        -- Looking for the names of resources writes the tree down, and that may fail.
        refine absurd ?_ (h (.unwritable e))
        simp only [ofValues, hformat]
        rfl
    | _ => rfl

/-- Where no keyword of a block stands, both ways read values. -/
theorem detect_eq_of_not_looksLikeHcl {stack : Stack} {text : String}
    (h : ∀ fault, parse stack text ≠ .error (.fault fault))
    (hblocks : Hcl.looksLikeHcl text.toList = false) :
    detect stack text = parsedFormat (parse stack text) := by
  have hisBlocks : isBlocks text.toList = false := by simp [isBlocks, hblocks]
  unfold parse detect at *
  cases hblank : Text.isAllBlank text.toList with
  | true => rfl
  | false =>
    simp only [hblank, hblocks, hisBlocks, if_false, Bool.false_eq_true] at h ⊢
    cases hload : load (stack.room 1) text with
    | error e => rfl
    | ok loaded =>
      obtain ⟨values, source⟩ := loaded
      rw [hload] at h
      show _ = parsedFormat (ofValues (stack.room 2) text values source)
      rw [parsedFormat_ofValues (stack.room_le (Nat.le_succ 1)) h]
      cases values <;> rfl

/-! ## Texts in blocks -/

/-- A keyword of a block is all that detection asks for. -/
theorem detect_of_looksLikeHcl {stack : Stack} {text : String}
    (hblank : Text.isAllBlank text.toList = false)
    (hblocks : Hcl.looksLikeHcl text.toList = true) : detect stack text = .terraform := by
  rw [detect, if_neg (by simp [hblank]), if_pos hblocks]

/-- A text that is cut into blocks is a configuration for parsing. -/
theorem parsedFormat_parse_of_isBlocks {stack : Stack} {text : String}
    (h : ∀ fault, parse stack text ≠ .error (.fault fault))
    (hblank : Text.isAllBlank text.toList = false) (hblocks : isBlocks text.toList = true) :
    parsedFormat (parse stack text) = .terraform := by
  unfold parse at *
  rw [if_neg (by simp [hblank]), if_pos hblocks] at *
  unfold ofBlocks at *
  cases htree : Hcl.configuration text.toList with
  | ok tree => rfl
  | error e =>
    rw [htree] at h
    exact absurd rfl (h (.value (.number e)))

/-! ## Agreement -/

/-- The two ways agree on every text without the ambiguity. -/
theorem detect_eq_parsedFormat {stack : Stack} {text : String}
    (h : ∀ fault, parse stack text ≠ .error (.fault fault)) (hclear : ¬IsAmbiguous text) :
    detect stack text = parsedFormat (parse stack text) := by
  cases hblocks : Hcl.looksLikeHcl text.toList with
  | false => exact detect_eq_of_not_looksLikeHcl h hblocks
  | true =>
    -- Without the ambiguity parsing takes the same branch as detection.
    have hstart : startsMapping text.toList = false := by
      rw [← Bool.not_eq_true]
      exact fun hstart => hclear ⟨hblocks, hstart⟩
    cases hblank : Text.isAllBlank text.toList with
    | true => simp [detect, parse, hblank, parsedFormat]
    | false =>
      rw [detect_of_looksLikeHcl hblank hblocks,
        parsedFormat_parse_of_isBlocks h hblank (by simp [isBlocks, hblocks, hstart])]

/-- The two ways agree exactly on the texts without the ambiguity and on those ambiguous texts
whose fields are those of a configuration. -/
theorem detect_eq_parsedFormat_iff {stack : Stack} {text : String}
    (h : ∀ fault, parse stack text ≠ .error (.fault fault)) :
    detect stack text = parsedFormat (parse stack text) ↔
      ¬IsAmbiguous text ∨ parsedFormat (parse stack text) = .terraform := by
  by_cases hambiguous : IsAmbiguous text
  · obtain ⟨hblocks, hstart⟩ := hambiguous
    have hblank := isAllBlank_eq_false_of_startsMapping hstart
    rw [detect_of_looksLikeHcl hblank hblocks, or_iff_right (not_not_intro ⟨hblocks, hstart⟩)]
    exact eq_comm
  · exact iff_of_true (detect_eq_parsedFormat h hambiguous) (.inl hambiguous)

/-! ## Where they differ -/

/-- A stack template whose description speaks of a block. -/
def templateAboutBlocks : String :=
  "\x7b\"AWSTemplateFormatVersion\": \"2010-09-09\", \"Description\": " ++
    "\"moved here from terraform \x7b \x7d\", \"Resources\": \x7b\x7d\x7d"

/-- Its fields tell parsing what it is. -/
theorem parsedFormat_templateAboutBlocks :
    parsedFormat (parse .standard templateAboutBlocks) = .cloudFormation := by
  decide +kernel

theorem parse_templateAboutBlocks_ne_fault :
    ∀ fault, parse .standard templateAboutBlocks ≠ .error (.fault fault) := by
  intro fault h
  have hformat := parsedFormat_templateAboutBlocks
  rw [h] at hformat
  cases hformat

/-- Its description misleads detection. -/
theorem detect_ne_parsedFormat :
    ¬∀ text, (∀ fault, parse .standard text ≠ .error (.fault fault)) →
      detect .standard text = parsedFormat (parse .standard text) := by
  intro h
  have hsame := h templateAboutBlocks parse_templateAboutBlocks_ne_fault
  rw [parsedFormat_templateAboutBlocks] at hsame
  exact absurd hsame (by decide +kernel)

theorem detect_eq_parsedFormat_iff_templateAboutBlocks :
    (∀ fault, parse .standard templateAboutBlocks ≠ .error (.fault fault)) ∧
      (detect .standard templateAboutBlocks = parsedFormat (parse .standard templateAboutBlocks) ↔
        ¬IsAmbiguous templateAboutBlocks ∨
          parsedFormat (parse .standard templateAboutBlocks) = .terraform) :=
  ⟨parse_templateAboutBlocks_ne_fault,
    detect_eq_parsedFormat_iff parse_templateAboutBlocks_ne_fault⟩

end Schematic
