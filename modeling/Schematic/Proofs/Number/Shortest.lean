import Mathlib.Data.List.Basic
import Schematic.Number.Shortest

/-!
# Characters of written numbers

A number is written with digits, a point, signs and the letters of its exponent or of a name, so
its text is no part of a word with underscores.

## Main statements

- `Binary64.underscore_not_mem_text` — no written number holds an underscore
-/

namespace Schematic

theorem DecimalFormat.underscore_not_mem_padded (width n : Nat) : '_' ∉ padded width n := by
  have hzeros {count : Nat} : '_' ∉ List.replicate count '0' := by simp
  rw [padded, List.mem_append, not_or]
  exact ⟨hzeros, Nat.underscore_not_in_toDigits⟩

/-- Signs, points and exponents bring no underscore in. -/
theorem DecimalFormat.underscore_not_mem_write (format : DecimalFormat) {ds : List Char}
    (h : '_' ∉ ds) (first : Int) : '_' ∉ format.write ds first := by
  have hzeros {count : Nat} : '_' ∉ List.replicate count '0' := by simp
  have htake {count : Nat} : '_' ∉ ds.take count := fun hmem => h (List.mem_of_mem_take hmem)
  have hdrop {count : Nat} : '_' ∉ ds.drop count := fun hmem => h (List.mem_of_mem_drop hmem)
  unfold write
  split
  · have hpadded := underscore_not_mem_padded format.exponentDigits first.natAbs
    have hsign : (if first < 0 then '-' else '+') ≠ '_' := by
      split <;> decide
    simp only [List.mem_append, not_or]
    constructor
    · split
      · simp_all
      · exact h
    · simp [hpadded, hsign.symm]
  · split
    · simp [h]
    · simp only []
      split
      · simp [h]
      · simp [htake, hdrop]

theorem Shortest.underscore_not_mem_trimZeros {ds : List Char} (h : '_' ∉ ds) :
    '_' ∉ trimZeros ds := by
  intro hmem
  rw [trimZeros, List.mem_reverse] at hmem
  exact h (List.mem_reverse.mp ((List.dropWhile_sublist _).subset hmem))

theorem Binary64.underscore_not_mem_text (x : Binary64) : '_' ∉ x.text.toList := by
  unfold text
  split
  · simp
  · have hsign : '_' ∉ (if x.isNegative then ['-'] else []) := by
      split <;> simp
    have hdigits : '_' ∉ Shortest.trimZeros (Nat.toDigits 10 (Shortest.digits x).1) :=
      Shortest.underscore_not_mem_trimZeros Nat.underscore_not_in_toDigits
    rw [String.toList_ofList, List.mem_append, not_or]
    refine ⟨hsign, ?_⟩
    split
    · simp
    · split
      · simp
      · exact DecimalFormat.underscore_not_mem_write _ hdigits _

end Schematic
