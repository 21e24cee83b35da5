import Schematic.Proofs.Document.Answer
import Schematic.Proofs.Document.Detection
import Schematic.Proofs.Json.Nested

/-!
# Documents of deeply nested texts

A text of lists inside each other has a document as long as there is room. If the key tells a format
it is enough that the text can be read. If it tells none the tree has to be written down as well,
and where there is less room for that a text that could be read has no answer.

## Main definitions

- `resourceText`, `resourceDocument` — lists under a key that tells a format

## Main statements

- `parse_resourceText` — how much room it takes for that text to have its document
- `not_isAnswered_parse_nestedText` — a text that is read and has no answer
-/

namespace Schematic

open Json

variable (stack : Stack)

/-- A text that begins like a mapping is neither blank nor a configuration, so it is loaded. -/
theorem parse_of_startsMapping {text : String} (h : Parse.startsMapping text.toList = true) :
    parse stack text = load (stack.room 1) text >>= fun loaded =>
      Parse.ofValues (stack.room 2) text loaded.1 loaded.2 := by
  have hblocks : Parse.isBlocks text.toList = false := by simp [Parse.isBlocks, h]
  rw [parse, isAllBlank_eq_false_of_startsMapping h, hblocks]
  rfl

theorem startsMapping_nestedText (key : List Char) (n : Nat) :
    Parse.startsMapping (nestedText key n).toList = true := by
  rw [nestedText, String.toList_ofList]
  rfl

section Texts

variable {key : List Char} (hkey : ∀ c ∈ key, c ≠ '"' ∧ c ≠ '\\' ∧ 0x20 ≤ c.toNat)

include hkey

theorem load_nestedText (room : Room) (n : Nat) :
    load room (nestedText key n) =
      if n + 1 < room.json (nestedText key n) then
        .ok ([.map [(String.ofList key, nestedLists n)]], .json)
      else .error (Load.tooDeep .json) := by
  rw [load, read_nestedText hkey]
  by_cases hroom : n + 1 < room.json (nestedText key n)
  · rw [if_pos hroom, if_pos hroom]
  · rw [if_neg hroom, if_neg hroom]

/-- If there is room to read the lists, what is left to do is to look for the format. -/
theorem parse_nestedText (n : Nat) :
    parse stack (nestedText key n) =
      if n + 1 < (stack.room 1).json (nestedText key n) then
        Parse.ofValues (stack.room 2) (nestedText key n)
          [.map [(String.ofList key, nestedLists n)]] .json
      else .error (Load.tooDeep .json) := by
  rw [parse_of_startsMapping stack (startsMapping_nestedText key n), load_nestedText hkey]
  by_cases hroom : n + 1 < (stack.room 1).json (nestedText key n)
  · rw [if_pos hroom, if_pos hroom]
    rfl
  · rw [if_neg hroom, if_neg hroom]
    rfl

/-- If the key tells no format, there is no answer where the text is read and cannot be written. -/
theorem not_isAnswered_parse_nestedText {n : Nat}
    (hnone : ∀ v, Format.ofFields? (.map [(String.ofList key, v)]) true = none)
    (hread : n + 1 < (stack.room 1).json (nestedText key n))
    (hwritten : (stack.room 2).written (.map [(String.ofList key, nestedLists n)]) < n + 2) :
    ¬IsAnswered (parse stack (nestedText key n)) := by
  rw [parse_nestedText stack hkey, if_pos hread, isAnswered_ofValues_iff]
  intro h
  -- An answer would have needed room for the lists and the mapping around them.
  have hnesting := (h _ _ rfl (hnone _)).2
  rw [Value.nesting, Value.nestingOfEntries, Value.nestingOfEntries,
    nesting_nestedLists] at hnesting
  omega

end Texts

/-- One level more than can be written is read, and there is no answer to it. -/
example : ¬IsAnswered (parse .standard (nestedText ['a'] 991)) :=
  not_isAnswered_parse_nestedText .standard (by decide) (fun _ => rfl) (by decide) (by decide)

/-! ## A key that tells a format -/

/-- The text of lists under the key of resources, at least one list inside another. -/
def resourceText (n : Nat) : String :=
  nestedText "resource".toList (n + 1)

/-- The document of such a text. -/
def resourceDocument (n : Nat) : Document where
  format := .terraform
  tree := [("resource", nestedLists (n + 1))]
  source := .json
  text := resourceText n

theorem parse_resourceText (n : Nat) :
    parse stack (resourceText n) =
      if n + 2 < (stack.room 1).json (resourceText n) then .ok (resourceDocument n)
      else .error (Load.tooDeep .json) :=
  parse_nestedText stack (by decide) (n + 1)

theorem isAllBlank_resourceText (n : Nat) : Text.isAllBlank (resourceText n).toList = false :=
  isAllBlank_eq_false_of_startsMapping (startsMapping_nestedText _ (n + 1))

theorem length_resourceText (n : Nat) : (resourceText n).toList.length = 2 * n + 17 := by
  have hkey : "resource".toList.length = 8 := rfl
  rw [resourceText, length_nestedText, hkey]
  omega

theorem isWritable_resourceDocument (n : Nat) : (resourceDocument n).root.isWritable = true :=
  Value.isWritable_map_iff.mpr (List.forall_mem_singleton.mpr (isWritable_nestedLists (n + 1)))

end Schematic
