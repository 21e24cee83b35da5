import Schematic.Json.Reader
import Schematic.Proofs.Success

/-!
# Reading JSON with more room

The reader looks at the number of open lists and mappings in one place only, where the next one is
opened. So a text for which there was room is read the same with more room, errors included.

## Main statements

- `sameUnless_readValue` — the one step that looks at the room
- `sameUnless_walk` — the walk
- `sameUnless_read` — the whole text
-/

namespace Schematic.Json

variable {limit more : Nat} (h : limit ≤ more)

include h

theorem sameUnless_readValue (stack : List Frame) (cs : List Char) :
    SameUnless (· = .tooDeep) (readValue limit stack cs) (readValue more stack cs) := by
  -- A container that there is room for may be opened with more room as well.
  have hopen {next : Except Fault Step} : SameUnless (· = .tooDeep)
      (if limit ≤ stack.length then .error .tooDeep else next)
      (if more ≤ stack.length then .error .tooDeep else next) := by
    by_cases hlimit : limit ≤ stack.length
    · rw [if_pos hlimit]
      exact .of_error rfl
    · rw [if_neg hlimit, if_neg fun hmore => hlimit (Nat.le_trans h hmore)]
      exact .refl next
  unfold readValue
  split
  · exact hopen
  · exact hopen
  · exact .refl _
  · exact .refl _

/-- What holds of the one step holds of the walk, as no other step looks at the room. -/
theorem sameUnless_walk (fuel : Nat) (step : Step) :
    SameUnless (· = .tooDeep) (walk limit fuel step) (walk more fuel step) := by
  induction fuel generalizing step with
  | zero => exact .refl _
  | succ fuel ih =>
    cases step with
    | value stack cs => exact (sameUnless_readValue h stack cs).bind ih
    | key stack entries cs => exact (SameUnless.refl (readKey stack entries cs)).bind ih
    | close stack value cs =>
      cases stack with
      | nil => exact .refl _
      | cons frame stack =>
        exact (SameUnless.refl (readAfter frame stack value (skipSpace cs))).bind ih

theorem sameUnless_readAll (cs : List Char) :
    SameUnless (· = .tooDeep) (readAll limit cs) (readAll more cs) := by
  unfold readAll
  split
  · exact .refl _
  · exact (sameUnless_walk h _ _).bind fun _ => .refl _

/-- With more room a text is read the same, unless there was too little before. -/
theorem sameUnless_read (text : String) :
    SameUnless (· = .tooDeep) (read limit text) (read more text) := by
  unfold read
  simp only
  rcases sameUnless_readAll h text.toList with heq | ⟨e, heq, rfl⟩
  · rw [heq]
    exact .refl _
  · rw [heq]
    exact .of_error rfl

end Schematic.Json
