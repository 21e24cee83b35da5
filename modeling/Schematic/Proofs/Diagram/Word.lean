import Schematic.Diagram.Identifier
import Schematic.Diagram.Label
import Schematic.Proofs.Text.Blank

/-!
# Identifiers and labels of a diagram

Whatever name a node is given, its identifier begins with a letter, holds letters, digits,
underscores and hyphens only and is no word that opens a statement. Whatever text a label is made
of, it stays on its line and between its quotes.

## Main definitions

- `IsNodeId` — characters that the diagram language reads as a node
- `IsLabel` — characters that may stand between quotes on one line

## Main statements

- `isNodeId_identifier` — every identifier is one of a node
- `isLabel_label` — every label is one
-/

namespace Schematic

open Identifier

/-! ## Identifiers -/

/-- The identifier of a node: a letter, then allowed characters, and no reserved word. -/
structure IsNodeId (cs : List Char) : Prop where
  isAlpha_head : cs.head?.any Char.isAlpha = true
  isAllowed : ∀ c ∈ cs, Identifier.isAllowed c = true
  isReserved_eq_false : Identifier.isReserved cs = false

instance (cs : List Char) : Decidable (IsNodeId cs) :=
  decidable_of_iff (cs.head?.any Char.isAlpha = true ∧
      (∀ c ∈ cs, Identifier.isAllowed c = true) ∧ Identifier.isReserved cs = false)
    ⟨fun h => ⟨h.1, h.2.1, h.2.2⟩, fun h => ⟨h.1, h.2, h.3⟩⟩

namespace Identifier

theorem sublist_collapse (cs : List Char) : (collapse cs).Sublist cs := by
  fun_induction collapse cs with
  | case1 => exact List.Sublist.slnil
  | case2 c rest h ih => exact ih.cons c
  | case3 c rest h ih => exact ih.cons_cons c

theorem mem_of_mem_trimUnderscores {c : Char} {cs : List Char} (h : c ∈ trimUnderscores cs) :
    c ∈ cs := by
  rw [trimUnderscores, List.mem_reverse] at h
  have hrest := (List.dropWhile_suffix _).subset h
  exact (List.dropWhile_suffix _).subset (List.mem_reverse.mp hrest)

/-- What is not allowed has been replaced. -/
theorem isAllowed_of_mem_squeeze {c : Char} {cs : List Char} (h : c ∈ squeeze cs) :
    isAllowed c = true := by
  have hmem := (sublist_collapse _).subset (mem_of_mem_trimUnderscores h)
  obtain ⟨d, -, rfl⟩ := List.mem_map.mp hmem
  split
  · next hd => exact hd
  · decide

/-- No reserved word begins with this letter. -/
theorem isReserved_cons_n (cs : List Char) : isReserved ('n' :: cs) = false := by
  have hfirst : ∀ word ∈ reserved, word.toList.head? ≠ some 'n' := by decide
  rw [← Bool.not_eq_true]
  intro h
  -- Reserved words are compared in lower case, and this letter is its own.
  have hmem := List.contains_iff_mem.mp h
  apply hfirst _ hmem
  rw [String.toList_ofList]
  rfl

theorem isNodeId_cons_n {cs : List Char} (h : ∀ c ∈ cs, isAllowed c = true) :
    IsNodeId ('n' :: cs) := by
  refine ⟨rfl, ?_, isReserved_cons_n cs⟩
  rw [List.forall_mem_cons]
  exact ⟨by decide, h⟩

theorem isNodeId_ofChars (cs : List Char) : IsNodeId (ofChars cs) := by
  have hallowed : ∀ c ∈ squeeze cs, isAllowed c = true := fun c => isAllowed_of_mem_squeeze
  unfold ofChars
  simp only
  split
  · exact isNodeId_cons_n hallowed
  · next hhead =>
    split
    · apply isNodeId_cons_n
      rw [List.forall_mem_cons]
      exact ⟨by decide, hallowed⟩
    · next hreserved => exact ⟨by simpa using hhead, hallowed, by simpa using hreserved⟩

end Identifier

/-- The identifier of every name is one of a node. -/
theorem isNodeId_identifier (name : String) : IsNodeId (identifier name).toList := by
  rw [identifier, String.toList_ofList]
  exact isNodeId_ofChars name.toList

namespace IsNodeId

variable {cs : List Char}

/-- What is not allowed in an identifier is not in it. -/
theorem not_mem (h : IsNodeId cs) {c : Char} (hc : Identifier.isAllowed c = false) : c ∉ cs :=
  Text.not_mem_of_class h.isAllowed hc

theorem feed_not_mem (h : IsNodeId cs) : '\n' ∉ cs :=
  h.not_mem (by decide)

theorem blank_not_mem (h : IsNodeId cs) : ' ' ∉ cs :=
  h.not_mem (by decide)

theorem bracket_not_mem (h : IsNodeId cs) : '[' ∉ cs :=
  h.not_mem (by decide)

theorem ne_nil (h : IsNodeId cs) : cs ≠ [] := by
  rintro rfl
  exact absurd h.isAlpha_head (by decide)

/-- An identifier is none of the reserved words. -/
theorem ne_of_isReserved (h : IsNodeId cs) {word : List Char} (hword : isReserved word = true) :
    cs ≠ word := by
  rintro rfl
  rw [h.isReserved_eq_false] at hword
  cases hword

end IsNodeId

/-! ## Labels -/

/-- A text that may stand between quotes on one line. -/
def IsLabel (cs : List Char) : Prop :=
  '"' ∉ cs ∧ '\n' ∉ cs

theorem isLabel_escape (cs : List Char) : IsLabel (Label.escape cs) := by
  have hquote : IsLabel "&quot;".toList := ⟨by decide, by decide⟩
  have hbreak : IsLabel "<br/>".toList := ⟨by decide, by decide⟩
  have happend {cs ds : List Char} (hc : IsLabel cs) (hd : IsLabel ds) : IsLabel (cs ++ ds) :=
    ⟨fun h => (List.mem_append.mp h).elim hc.1 hd.1,
      fun h => (List.mem_append.mp h).elim hc.2 hd.2⟩
  fun_induction Label.escape cs with
  | case1 => exact ⟨by simp, by simp⟩
  | case2 rest ih => exact happend hquote ih
  | case3 rest ih => exact happend hbreak ih
  | case4 rest ih => exact happend hbreak ih
  | case5 c rest hq hpair hfeed ih =>
    constructor
    · intro h
      rcases List.mem_cons.mp h with rfl | h
      · exact hq rfl
      · exact ih.1 h
    · intro h
      rcases List.mem_cons.mp h with rfl | h
      · exact hfeed rfl
      · exact ih.2 h

/-- A character that is no line end and no quote is kept. -/
theorem Label.escape_cons {c : Char} {cs : List Char} (hquote : c ≠ '"') (hfeed : c ≠ '\n')
    (hpair : ∀ rest, c = '\r' → cs ≠ '\n' :: rest) :
    Label.escape (c :: cs) = c :: Label.escape cs := by
  generalize hcs : c :: cs = text
  fun_cases Label.escape text with
  | case1 => cases hcs
  | case2 rest => exact absurd (List.cons.inj hcs).1 hquote
  | case3 rest => exact absurd (List.cons.inj hcs).2 (hpair rest (List.cons.inj hcs).1)
  | case4 rest => exact absurd (List.cons.inj hcs).1 hfeed
  | case5 d rest =>
    obtain ⟨rfl, rfl⟩ := List.cons.inj hcs
    rfl

/-- Text is escaped in parts, unless a line end is parted. -/
theorem Label.escape_append {back : List Char} (h : '\n' ∉ back.head?) (front : List Char) :
    Label.escape (front ++ back) = Label.escape front ++ Label.escape back := by
  fun_induction Label.escape front with
  | case1 => rfl
  | case2 rest ih =>
    rw [List.append_assoc, ← ih]
    rfl
  | case3 rest ih =>
    rw [List.append_assoc, ← ih]
    rfl
  | case4 rest ih =>
    rw [List.append_assoc, ← ih]
    rfl
  | case5 c rest hquote hpair hfeed ih =>
    have hparted (more : List Char) (hreturn : c = '\r') : rest ++ back ≠ '\n' :: more := by
      intro hmore
      cases rest with
      | nil => exact h (congrArg List.head? hmore)
      | cons d rest => exact hpair rest hreturn (by rw [(List.cons.inj hmore).1])
    rw [List.cons_append, escape_cons hquote hfeed hparted, ih, List.cons_append]

/-- The label of every text is one. -/
theorem isLabel_label (text : String) : IsLabel (label text).toList := by
  rw [label, String.toList_ofList]
  -- Blanks are cut off after the escapes have been put in, and no cut adds a character.
  have hsubset := (Text.infix_trim (Label.escape text.toList)).subset
  have hescape := isLabel_escape text.toList
  exact ⟨fun h => hescape.1 (hsubset h), fun h => hescape.2 (hsubset h)⟩

end Schematic
