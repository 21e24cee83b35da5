import Schematic.Document.Parse
import Schematic.Proofs.Json.Room
import Schematic.Proofs.Json.Writer
import Schematic.Proofs.Yaml.Room

/-!
# Parsing with more room

What parsing makes of a text depends on the stack in one way only: there may be too little room, to
read the text or to write down its tree. A text for which there was room has the same document, and
the same errors, with more room. So a function that is called further down comes to the same as its
caller would, or finds the text nested too deeply.

## Main definitions

- `IsTooDeep` — what parsing says of a text that is nested too deeply

## Main statements

- `sameUnless_load`, `sameUnless_ofTree`, `sameUnless_parse` — what more room changes
- `sameUnless_parse_below` — what is changed by being called further down
-/

namespace Schematic

/-- What is said of a text that is nested too deeply to be read, or to have its tree written. -/
inductive IsTooDeep : LoadError → Prop where
  | read (source : Source) : IsTooDeep (Load.tooDeep source)
  | written : IsTooDeep (.fault (.unwritable .tooDeep))

section Room

variable {room more : Room} (h : room ≤ more)

include h

theorem sameUnless_load (text : String) :
    SameUnless IsTooDeep (load room text) (load more text) := by
  unfold load
  rcases Json.sameUnless_read (h.json text) text with heq | ⟨e, heq, rfl⟩
  · rw [heq]
    split
    · exact .refl _
    · exact .refl _
    · exact .refl _
    · next e _ =>
      apply SameUnless.map
      unfold Load.loadYaml
      rcases Yaml.sameUnless_read (h.yaml text) text.toList with heq | ⟨e, heq, rfl⟩
      · rw [heq]
        exact .refl _
      · rw [heq]
        exact .of_error (.read .yaml)
  · rw [heq]
    exact .of_error (.read .json)

theorem sameUnless_ofTree (tree : Value) (isJson : Bool) :
    SameUnless (· = .tooDeep) (Format.ofTree room tree isJson)
      (Format.ofTree more tree isJson) := by
  unfold Format.ofTree
  split
  · exact .refl _
  · split
    · exact .refl _
    · have hwrite := Json.sameUnless_write tree (h.written tree)
      exact (hwrite.bind fun _ => .refl _).bind fun _ => .refl _

theorem sameUnless_ofValues (text : String) (values : List Value) (source : Source) :
    SameUnless IsTooDeep (Parse.ofValues room text values source)
      (Parse.ofValues more text values source) := by
  unfold Parse.ofValues
  split
  · refine ((sameUnless_ofTree h _ _).mapError ?_).bind fun _ => .refl _
    rintro _ rfl
    exact .written
  · exact .refl _

end Room

/-- With more room a text is parsed the same, unless it was nested too deeply before. -/
theorem sameUnless_parse {stack more : Stack} (h : ∀ n, stack.room n ≤ more.room n)
    (text : String) : SameUnless IsTooDeep (parse stack text) (parse more text) := by
  unfold parse
  split
  · exact .refl _
  · split
    · exact .refl _
    · exact (sameUnless_load (h 1) text).bind fun loaded => sameUnless_ofValues (h 2) text _ _

/-- A function that is called further down finds no more room. -/
theorem Stack.room_below_le (stack : Stack) (calls n : Nat) :
    (stack.below calls).room n ≤ stack.room n := by
  have hle : stack.room (calls + n) ≤ stack.room n := stack.room_le (Nat.le_add_left n calls)
  exact hle

/-- Called further down, parsing comes to the same, unless the text is nested too deeply there. -/
theorem sameUnless_parse_below (stack : Stack) (calls : Nat) (text : String) :
    SameUnless IsTooDeep (parse (stack.below calls) text) (parse stack text) :=
  sameUnless_parse (stack.room_below_le calls) text

end Schematic
