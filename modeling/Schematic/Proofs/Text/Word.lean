import Schematic.Text.Blank
import Schematic.Text.Word

/-!
# Words have no blanks

No word character is a blank or ends a line, so identifiers stay whole when a text is cut into
lines or trimmed.

## Main statements

- `isBlank_of_isLineBreak` — every line end is a blank
- `isBlank_eq_false_of_isWord` — no word character is one
-/

namespace Schematic.Text

/-- Every character that ends a line is a blank. -/
theorem isBlank_of_isLineBreak {c : Char} (h : isLineBreak c = true) : isBlank c = true := by
  simp [isLineBreak] at h
  simp [isBlank]
  omega

/-- The blanks outside ASCII. -/
def wideBlanks : List Nat :=
  [0x85, 0xA0, 0x1680, 0x2000, 0x2001, 0x2002, 0x2003, 0x2004, 0x2005, 0x2006, 0x2007, 0x2008,
    0x2009, 0x200A, 0x2028, 0x2029, 0x202F, 0x205F, 0x3000]

theorem toNat_of_isBlank {c : Char} (h : isBlank c = true) :
    c.toNat ≤ 0x20 ∨ c.toNat ∈ wideBlanks := by
  simp [isBlank] at h
  simp [wideBlanks]
  omega

/-- No range of word characters holds a blank. -/
theorem not_mem_range_of_mem_wideBlanks {range : Nat × Nat} (hrange : range ∈ wordRanges.toList)
    {n : Nat} (hn : n ∈ wideBlanks) : ¬(range.1 ≤ n ∧ n ≤ range.2) := by
  -- The ranges are finitely many, so the two tables are compared once.
  have table : (wordRanges.toList.all fun range =>
      wideBlanks.all fun n => Nat.blt n range.1 || Nat.blt range.2 n) = true := by
    decide +kernel
  have hout := List.all_eq_true.mp (List.all_eq_true.mp table range hrange) n hn
  simp only [Bool.or_eq_true, Nat.blt_eq] at hout
  omega

/-- The letters of ASCII. -/
theorem isAlpha_iff_toNat {c : Char} : c.isAlpha = true ↔
    (0x41 ≤ c.toNat ∧ c.toNat ≤ 0x5A) ∨ (0x61 ≤ c.toNat ∧ c.toNat ≤ 0x7A) := by
  have hcode : c.isAlpha = (decide (0x41 ≤ c.val ∧ c.val ≤ 0x5A) ||
      (decide (0x61 ≤ c.val) && decide (c.val ≤ 0x7A))) := rfl
  rw [hcode, Bool.or_eq_true, Bool.and_eq_true, decide_eq_true_iff, decide_eq_true_iff,
    decide_eq_true_iff]
  exact Iff.rfl

/-- Letters and digits of ASCII lie behind all its blanks. -/
theorem toNat_of_isAlphanum {c : Char} (h : c.isAlphanum = true) : 0x30 ≤ c.toNat := by
  rcases Bool.or_eq_true_iff.mp h with h | h
  · have := isAlpha_iff_toNat.mp h
    omega
  · exact (Char.isDigit_iff_toNat.mp h).1

theorem isBlank_eq_false_of_isWord {c : Char} (h : isWord c = true) : isBlank c = false := by
  rw [← Bool.not_eq_true]
  intro hblank
  have hplace := toNat_of_isBlank hblank
  unfold isWord at h
  simp only at h
  split at h
  -- Below the limit of ASCII only the low blanks are left.
  · next hascii =>
    have hlow : c.toNat ≤ 0x20 := by
      simp [wideBlanks] at hplace
      omega
    rcases Bool.or_eq_true_iff.mp h with h | h
    · have := toNat_of_isAlphanum h
      omega
    · rw [beq_iff_eq.mp h] at hlow
      exact absurd hlow (by decide)
  · next hwide =>
    rw [Array.any_eq_true'] at h
    obtain ⟨range, hrange, hin⟩ := h
    simp only [Bool.and_eq_true, decide_eq_true_eq] at hin
    rcases hplace with hlow | hmem
    · omega
    · exact not_mem_range_of_mem_wideBlanks (Array.mem_toList_iff.mpr hrange) hmem hin

/-- A character that is no blank ends no line. -/
theorem isLineBreak_eq_false_of_isBlank_eq_false {c : Char} (h : isBlank c = false) :
    isLineBreak c = false := by
  rw [← Bool.not_eq_true] at h ⊢
  exact fun hbreak => h (isBlank_of_isLineBreak hbreak)

/-- No letter is a digit. -/
theorem isDigit_eq_false_of_isAlpha {c : Char} (h : c.isAlpha = true) : c.isDigit = false := by
  have hletter := isAlpha_iff_toNat.mp h
  rw [← Bool.not_eq_true, Char.isDigit_iff_toNat]
  change ¬(0x30 ≤ c.toNat ∧ c.toNat ≤ 0x39)
  omega

/-- No identifier starts with a digit. -/
theorem isDigit_eq_false_of_isIdentStart {c : Char} (h : isIdentStart c = true) :
    c.isDigit = false := by
  rcases Bool.or_eq_true_iff.mp h with h | h
  · exact isDigit_eq_false_of_isAlpha h
  · rw [beq_iff_eq.mp h]
    decide

end Schematic.Text
