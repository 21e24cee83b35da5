import Schematic.Proofs.Document.Loaded
import Schematic.Proofs.Yaml.Plain

/-!
# Documents are consistent

The fields of a document say the same thing in several ways: that the text held several documents,
what they are, which of them is drawn, and what format it has. Whatever text a document was parsed
from, its fields agree with each other and with the text.

## Main definitions

- `Document.IsConsistent` — how the fields of a document hang together

## Main statements

- `ofTree_nil` — an empty tree has no format
- `isConsistent_of_parse` — documents that are parsed are consistent
-/

namespace Schematic

open Parse

/-- How the fields of a document hang together, and with the text that it was parsed from. -/
structure Document.IsConsistent (stack : Stack) (text : String) (doc : Document) : Prop where
  isMultiDocument_iff : doc.isMultiDocument = true ↔ doc.documents ≠ []
  two_le_length_iff : 2 ≤ doc.documents.length ↔ doc.documents ≠ []
  /-- Several documents are YAML and none is null; the first of them is drawn. -/
  several : doc.isMultiDocument = true →
    doc.source = .yaml ∧ Value.null ∉ doc.documents ∧ doc.documents.head? = some doc.root
  blocks : doc.source = .hcl →
    doc.format = .terraform ∧ Hcl.configuration text.toList = .ok doc.tree
  format_eq : doc.source ≠ .hcl →
    Format.ofTree (stack.room 2) doc.root (doc.source == .json) = .ok doc.format
  /-- The tree is the first value of the text if that is a mapping; there is none otherwise. -/
  loaded : doc.source ≠ .hcl → ∃ values, load (stack.room 1) text = .ok (values, doc.source) ∧
    (∀ tree rest, values = .map tree :: rest →
      doc.tree = tree ∧ doc.documents = if rest.isEmpty then [] else values) ∧
    ((∀ tree rest, values ≠ .map tree :: rest) →
      doc.tree = [] ∧ doc.documents = [] ∧ doc.format = .unknown)
  text_eq : doc.text = text

/-- What is said about several documents says nothing about one. -/
theorem Document.IsConsistent.of_single {stack : Stack} {text : String} {doc : Document}
    (hmulti : doc.isMultiDocument = false) (hdocuments : doc.documents = [])
    (blocks : doc.source = .hcl →
      doc.format = .terraform ∧ Hcl.configuration text.toList = .ok doc.tree)
    (format_eq : doc.source ≠ .hcl →
      Format.ofTree (stack.room 2) doc.root (doc.source == .json) = .ok doc.format)
    (loaded : doc.source ≠ .hcl → ∃ values, load (stack.room 1) text = .ok (values, doc.source) ∧
      (∀ tree rest, values = .map tree :: rest → doc.tree = tree ∧ rest = []) ∧
      ((∀ tree rest, values ≠ .map tree :: rest) → doc.tree = [] ∧ doc.format = .unknown))
    (text_eq : doc.text = text) : doc.IsConsistent stack text where
  isMultiDocument_iff := by simp [hmulti, hdocuments]
  two_le_length_iff := by simp [hdocuments]
  several := by simp [hmulti]
  blocks := blocks
  format_eq := format_eq
  loaded := by
    intro hsource
    obtain ⟨values, hload, hmap, hnone⟩ := loaded hsource
    refine ⟨values, hload, fun tree rest heq => ?_, fun h => ?_⟩
    · obtain ⟨htree, rfl⟩ := hmap tree rest heq
      exact ⟨htree, hdocuments⟩
    · exact ⟨(hnone h).1, hdocuments, (hnone h).2⟩
  text_eq := text_eq

/-- An empty tree has no format; there is always room to write it down. -/
theorem ofTree_nil (room : Room) (isJson : Bool) :
    Format.ofTree room (.map []) isJson = .ok .unknown := by
  obtain ⟨left, hleft⟩ := Nat.exists_eq_add_one.mpr (room.written_pos (.map []))
  have hwrite : Json.write (room.written (.map [])) (.map []) = .ok ['{', '}'] := by
    rw [hleft]
    rfl
  unfold Format.ofTree Format.namesResource
  rw [hwrite]
  cases isJson <;> rfl


theorem source_ne_hcl_of_load {room : Room} {text : String} {values : List Value} {source : Source}
    (h : load room text = .ok (values, source)) : source ≠ .hcl := by
  rcases read_of_load h with ⟨rfl, -⟩ | ⟨rfl, -⟩ <;> decide

/-- Only YAML holds more than one document, and none of these is null. -/
theorem several_of_load {room : Room} {text : String} {first second : Value} {rest : List Value}
    {source : Source} (h : load room text = .ok (first :: second :: rest, source)) :
    source = .yaml ∧ Value.null ∉ first :: second :: rest := by
  rcases read_of_load h with ⟨-, value, hvalues, -⟩ | ⟨hsource, hread⟩
  · cases hvalues
  · exact ⟨hsource, Yaml.null_not_mem_of_read hread⟩

/-- What the values of a text form is consistent. -/
theorem isConsistent_of_ofValues {stack : Stack} {text : String} {values : List Value}
    {source : Source} {doc : Document} (hload : load (stack.room 1) text = .ok (values, source))
    (h : ofValues (stack.room 2) text values source = .ok doc) : doc.IsConsistent stack text := by
  have hsource := source_ne_hcl_of_load hload
  -- A mapping on its own is not listed, one in front of others is listed with them, and without a
  -- mapping in front nothing is kept.
  rcases formed_of_ofValues h with ⟨tree, rest, format, rfl, hformat, rfl⟩ | ⟨hnone, rfl⟩
  · have hno : ¬∀ t r, Value.map tree :: rest ≠ .map t :: r := fun hnone => hnone tree rest rfl
    cases rest with
    | nil =>
      apply Document.IsConsistent.of_single rfl rfl
      · exact fun heq => absurd heq hsource
      · exact fun _ => hformat
      · refine fun _ => ⟨_, hload, ?_, fun hnone => absurd hnone hno⟩
        rintro _ _ ⟨⟩
        exact ⟨rfl, rfl⟩
      · rfl
    | cons second rest =>
      obtain ⟨hyaml, hnull⟩ := several_of_load hload
      constructor
      case isMultiDocument_iff => simp
      case two_le_length_iff => simp
      case several => exact fun _ => ⟨hyaml, hnull, rfl⟩
      case blocks => exact fun heq => absurd heq hsource
      case format_eq => exact fun _ => hformat
      case loaded =>
        refine fun _ => ⟨_, hload, ?_, fun hnone => absurd hnone hno⟩
        rintro _ _ ⟨⟩
        exact ⟨rfl, rfl⟩
      case text_eq => rfl
  · apply Document.IsConsistent.of_single rfl rfl
    · exact fun heq => absurd heq hsource
    · exact fun _ => ofTree_nil _ _
    · exact fun _ => ⟨values, hload, fun tree rest heq => absurd heq (hnone tree rest),
        fun _ => ⟨rfl, rfl⟩⟩
    · rfl

/-- A document that is parsed from a text is consistent with it. -/
theorem isConsistent_of_parse {stack : Stack} {text : String} {doc : Document}
    (h : parse stack text = .ok doc) : doc.IsConsistent stack text := by
  rcases loaded_of_parse h with ⟨tree, htree, rfl⟩ | ⟨values, source, hload, hvalues⟩
  · apply Document.IsConsistent.of_single rfl rfl
    · exact fun _ => ⟨rfl, htree⟩
    · exact fun hsource => absurd rfl hsource
    · exact fun hsource => absurd rfl hsource
    · rfl
  · exact isConsistent_of_ofValues hload hvalues

/-- Three documents: one that is null, and two mappings. -/
def spacedText : String :=
  "---\n---\nkind: Pod\napiVersion: v1\n---\nkind: Job\n"

theorem isConsistent_of_parse_spacedText : ∃ doc, parse .standard spacedText = .ok doc ∧
    doc.isMultiDocument = true ∧ doc.documents.length = 2 ∧ doc.format = .kubernetes ∧
    doc.IsConsistent .standard spacedText := by
  have hfields : (parse .standard spacedText).toOption.map (fun doc =>
      (doc.isMultiDocument, doc.documents.length, doc.format)) = some (true, 2, .kubernetes) := by
    decide +kernel
  obtain ⟨doc, hparse, hfields⟩ := exists_of_toOption_map_eq_some hfields
  simp only [Prod.mk.injEq] at hfields
  obtain ⟨hmulti, hlength, hformat⟩ := hfields
  exact ⟨doc, hparse, hmulti, hlength, hformat, isConsistent_of_parse hparse⟩

end Schematic
