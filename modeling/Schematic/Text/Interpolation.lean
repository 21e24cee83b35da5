import Schematic.Text.Search

/-!
# Interpolations

The expressions that a template text embeds between a dollar sign with a brace and the next
closing brace. An opener that is never closed ends the search, because no later one can be closed
either.

## Main definitions

- `interpolations` — the embedded expressions from left to right
-/

namespace Schematic.Text

/-- The expressions embedded in a text, from left to right. -/
def interpolations (cs : List Char) : List (List Char) :=
  match cs with
  | [] => []
  | '$' :: '{' :: rest =>
    match _h : cutAtChar? '}' rest with
    | some (inner, left) => inner :: interpolations left
    | none => []
  | _ :: rest => interpolations rest
termination_by cs.length
decreasing_by
  · have := length_lt_of_cutAtChar? _h
    simp only [List.length_cons]
    omega
  · simp

end Schematic.Text
