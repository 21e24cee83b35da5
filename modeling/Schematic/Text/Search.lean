/-!
# Occurrences of one text in another

Finding a fixed text in another, and cutting a text at a character. All functions read from left
to right.

## Main definitions

- `occursIn` — whether a text occurs in another
- `cutAtChar?` — what stands before and after the first occurrence of a character
- `splitAtChar` — the pieces between separators
-/

namespace Schematic.Text

/-- Whether `needle` occurs in the text. -/
def occursIn (needle : List Char) : List Char → Bool
  | [] => needle.isEmpty
  | c :: cs => needle.isPrefixOf (c :: cs) || occursIn needle cs

/-- What is before the first character `stop` and what is after it. -/
def cutAtChar? (stop : Char) : List Char → Option (List Char × List Char)
  | [] => none
  | c :: cs =>
    if c = stop then some ([], cs)
    else (cutAtChar? stop cs).map fun (before, rest) => (c :: before, rest)

/-- What follows a cut is shorter than the text. -/
theorem length_lt_of_cutAtChar? {stop : Char} {cs before rest : List Char}
    (h : cutAtChar? stop cs = some (before, rest)) : rest.length < cs.length := by
  induction cs generalizing before with
  | nil => simp [cutAtChar?] at h
  | cons c cs ih =>
    rw [cutAtChar?] at h
    split at h
    · simp only [Option.some.injEq, Prod.mk.injEq] at h
      simp [h.2]
    · obtain ⟨⟨b, r⟩, hr, he⟩ := Option.map_eq_some_iff.1 h
      simp only [Prod.mk.injEq] at he
      exact Nat.lt_succ_of_lt (ih (he.2 ▸ hr))

/-- The pieces between the separators, one more than there are separators. -/
def splitAtChar (sep : Char) : List Char → List (List Char)
  | [] => [[]]
  | c :: cs =>
    if c = sep then [] :: splitAtChar sep cs
    else
      match splitAtChar sep cs with
      | [] => [[c]]
      | piece :: more => (c :: piece) :: more

/-- The texts with a separator between each two. -/
def join (sep : String) (parts : List String) : String :=
  sep.intercalate parts

end Schematic.Text
