import Schematic.Document.Parse
import Schematic.Proofs.Success

/-!
# Where a document comes from

A document is made in one of three ways: from the blocks of a configuration, from the value that
JSON reads, or from the documents that YAML reads. Here each function on these ways is turned
around: from what it results in to what it was made of.

## Main statements

- `read_of_load` — loaded values are read as JSON or as YAML
- `formed_of_ofValues` — what the values of a text form
- `loaded_of_parse` — a document has a configuration or loaded values behind it
-/

namespace Schematic

open Parse

/-- What is loaded is the value that JSON reads, or the documents that YAML reads. -/
theorem read_of_load {room : Room} {text : String} {values : List Value} {source : Source}
    (h : load room text = .ok (values, source)) :
    (source = .json ∧ ∃ value, values = [value] ∧ Json.read (room.json text) text = .ok value) ∨
      (source = .yaml ∧ Yaml.read (room.yaml text) text.toList = .ok values) := by
  unfold load at h
  split at h
  · next value hread =>
    obtain ⟨rfl, rfl⟩ := Prod.mk.inj (Except.ok.inj h)
    exact .inl ⟨rfl, value, rfl, hread⟩
  · cases h
  · cases h
  · next e _ =>
    unfold Load.loadYaml at h
    cases hyaml : Yaml.read (room.yaml text) text.toList with
    | error failure =>
      rw [hyaml] at h
      cases failure <;> cases h
    | ok documents =>
      rw [hyaml] at h
      obtain ⟨rfl, rfl⟩ := Prod.mk.inj (Except.ok.inj h)
      exact .inr ⟨rfl, rfl⟩

/-- Values form a document of their first mapping, or one without a tree. -/
theorem formed_of_ofValues {room : Room} {text : String} {values : List Value} {source : Source}
    {doc : Document} (h : ofValues room text values source = .ok doc) :
    (∃ tree rest format, values = .map tree :: rest ∧
      Format.ofTree room (.map tree) (source == .json) = .ok format ∧
      doc = {
        format := format
        tree := tree
        source := source
        isMultiDocument := !rest.isEmpty
        documents := if rest.isEmpty then [] else values
        text := text }) ∨
    ((∀ tree rest, values ≠ .map tree :: rest) ∧ doc = { source := source, text := text }) := by
  unfold ofValues at h
  split at h
  · next tree rest =>
    obtain ⟨format, hformat, h⟩ := exists_of_bind_eq_ok h
    refine .inl ⟨tree, rest, format, rfl, mapError_eq_ok_iff.mp hformat, ?_⟩
    rw [← Except.ok.inj h]
    cases rest <;> rfl
  · next hnone => exact .inr ⟨hnone, (Except.ok.inj h).symm⟩

/-- A document has the tree of a configuration, or it is formed of loaded values. -/
theorem loaded_of_parse {stack : Stack} {text : String} {doc : Document}
    (h : parse stack text = .ok doc) :
    (∃ tree, Hcl.configuration text.toList = .ok tree ∧
      doc = { format := .terraform, tree := tree, source := .hcl, text := text }) ∨
    ∃ values source, load (stack.room 1) text = .ok (values, source) ∧
      ofValues (stack.room 2) text values source = .ok doc := by
  unfold parse at h
  split at h
  · cases h
  · split at h
    · obtain ⟨tree, htree, h⟩ := exists_of_bind_eq_ok h
      exact .inl ⟨tree, mapError_eq_ok_iff.mp htree, (Except.ok.inj h).symm⟩
    · obtain ⟨⟨values, source⟩, hload, h⟩ := exists_of_bind_eq_ok h
      exact .inr ⟨values, source, hload, h⟩

end Schematic
