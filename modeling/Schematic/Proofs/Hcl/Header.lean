import Mathlib.Data.List.Basic
import Schematic.Hcl.Block
import Schematic.Proofs.Hcl.Written
import Schematic.Text.Word

/-!
# Headers line by line

A header stands at the start of a line, so the headers of a text are found by looking at the front
of each of its lines. A line that begins with a name and an equals sign is no header of any
keyword, not even if the name begins with the keyword.

## Main statements

- `headersFrom_line`, `headersFrom_header` — a line without a header and one with a header
- `header?_labels` — a keyword with two labels is a header
- `header?_assignment` — an assignment is no header
- `headersFrom_unlines` — lines without any header
-/

namespace Schematic.Hcl

open Text (unlines unlines_cons unlines_append)

/-! ## Through a line -/

variable {keyword : List Char}

/-- Behind the start of a line no header is found up to its end. -/
theorem headersFrom_lineRest (keyword : List Char) {line : List Char} (hline : '\n' ∉ line)
    (offset : Nat) (rest : List Char) : headersFrom keyword offset false 0 (line ++ '\n' :: rest) =
      headersFrom keyword (offset + line.length + 1) true 0 rest := by
  induction line generalizing offset with
  | nil => rfl
  | cons c line ih =>
    have hc := beq_feed_eq_false hline
    have hrest := ih (fun h => hline (List.mem_cons_of_mem _ h)) (offset + 1)
    rw [List.cons_append, headersFrom, headerAt?, if_neg (by decide)]
    simp only [hc, hrest, List.length_cons]
    congr 1
    omega

theorem headersFrom_feed (keyword : List Char) (offset : Nat) (rest : List Char) :
    headersFrom keyword offset false 0 ('\n' :: rest) =
      headersFrom keyword (offset + 1) true 0 rest :=
  rfl

/-- Characters of a header that was found are passed over. -/
theorem headersFrom_skip (keyword : List Char) {head : List Char} (hhead : '\n' ∉ head)
    (offset : Nat) (rest : List Char) :
    headersFrom keyword offset false head.length (head ++ rest) =
      headersFrom keyword (offset + head.length) false 0 rest := by
  induction head generalizing offset with
  | nil => rfl
  | cons c head ih =>
    have hc := beq_feed_eq_false hhead
    have hrest := ih (fun h => hhead (List.mem_cons_of_mem _ h)) (offset + 1)
    rw [List.cons_append, List.length_cons, headersFrom]
    simp only [hc, hrest]
    congr 1
    omega

/-- A line that is no header. -/
theorem headersFrom_line {line rest : List Char} (hline : '\n' ∉ line)
    (hnone : header? keyword (line ++ '\n' :: rest) = none) (offset : Nat) :
    headersFrom keyword offset true 0 (line ++ '\n' :: rest) =
      headersFrom keyword (offset + line.length + 1) true 0 rest := by
  cases line with
  | nil =>
    rw [List.nil_append] at hnone ⊢
    rw [headersFrom, headerAt?, if_pos rfl, hnone]
    rfl
  | cons c line =>
    have hc := beq_feed_eq_false hline
    have hrest := headersFrom_lineRest keyword
      (fun h => hline (List.mem_cons_of_mem _ h)) (offset + 1) rest
    rw [List.cons_append] at hnone ⊢
    rw [headersFrom, headerAt?, if_pos rfl, hnone]
    simp only [hc, hrest, List.length_cons]
    congr 1
    omega

/-- A header at the start of a line. Behind it no other header is found on the same line. -/
theorem headersFrom_head {head left : List Char} {labels : List (List Char)} (hne : head ≠ [])
    (hhead : '\n' ∉ head) (hsome : header? keyword (head ++ left) = some (labels, left))
    (offset : Nat) : headersFrom keyword offset true 0 (head ++ left) =
      ⟨offset, labels.map String.ofList, offset + head.length - 1⟩ ::
        headersFrom keyword (offset + head.length) false 0 left := by
  obtain ⟨c, head, rfl⟩ := List.exists_cons_of_ne_nil hne
  have hc := beq_feed_eq_false hhead
  -- This is how many characters are passed over.
  have hlength : (head ++ left).length + 1 - left.length = (c :: head).length := by
    simp only [List.length_append, List.length_cons]
    omega
  have hskip := headersFrom_skip keyword
    (fun h => hhead (List.mem_cons_of_mem _ h)) (offset + 1) left
  rw [List.cons_append] at hsome ⊢
  rw [headersFrom, headerAt?, if_pos rfl, hsome]
  simp only [hc]
  rw [hlength, List.length_cons, Nat.add_sub_cancel, hskip]
  congr 2
  omega

/-- A line that is a header. -/
theorem headersFrom_header {head rest : List Char} {labels : List (List Char)} (hne : head ≠ [])
    (hhead : '\n' ∉ head)
    (hsome : header? keyword (head ++ '\n' :: rest) = some (labels, '\n' :: rest))
    (offset : Nat) : headersFrom keyword offset true 0 (head ++ '\n' :: rest) =
      ⟨offset, labels.map String.ofList, offset + head.length - 1⟩ ::
        headersFrom keyword (offset + head.length + 1) true 0 rest := by
  rw [headersFrom_head hne hhead hsome, headersFrom_feed]

/-! ## Labels -/

theorem labelRest?_append {label : List Char} (hquote : '"' ∉ label) (hfeed : '\n' ∉ label)
    (done rest : List Char) : labelRest? done (label ++ '"' :: rest) =
      (labels? rest).map fun (more, left) => ((done.reverse ++ label) :: more, left) := by
  induction label generalizing done with
  | nil =>
    rw [List.nil_append, labelRest?]
    simp
  | cons c label ih =>
    have hq : c ≠ '"' := fun h => hquote (h ▸ List.mem_cons_self)
    have hf : c ≠ '\n' := fun h => hfeed (h ▸ List.mem_cons_self)
    rw [List.cons_append, labelRest?, ih (fun h => hquote (List.mem_cons_of_mem _ h))
      (fun h => hfeed (List.mem_cons_of_mem _ h))]
    · simp
    · exact hq
    · exact hf

/-- A label with a gap in front of it. -/
theorem labels?_cons {label : List Char} (hquote : '"' ∉ label) (hfeed : '\n' ∉ label)
    (rest : List Char) : labels? (' ' :: '"' :: (label ++ '"' :: rest)) =
      (labels? rest).map fun (more, left) => (label :: more, left) := by
  rw [labels?, if_pos (by decide), labels?, labelRest?_append hquote hfeed]
  · rfl
  · decide
  · decide

/-- The brace behind the labels. -/
theorem labels?_openBrace (rest : List Char) : labels? (' ' :: '{' :: rest) = some ([], rest) := by
  rw [labels?, if_pos (by decide), labels?]
  · decide
  · decide

/-! ## Lines that are headers and lines that are not -/

/-- The characters of a class are no gaps if it leaves out blanks and tabs. -/
theorem isGap_eq_false_of_class {p : Char → Bool} {c : Char} (hc : p c = true)
    (hblank : p ' ' = false) (htab : p '\t' = false) : isGap c = false := by
  rw [isGap, Bool.or_eq_false_iff, beq_eq_false_iff_ne, beq_eq_false_iff_ne]
  exact ⟨Text.ne_of_class hc hblank, Text.ne_of_class hc htab⟩

theorem isGap_eq_false_of_isIdentRest {c : Char} (hc : Text.isIdentRest c = true) :
    isGap c = false :=
  isGap_eq_false_of_class hc (by decide) (by decide)

/-- A word that may be a keyword. -/
structure IsKeyword (keyword : List Char) : Prop where
  ne_nil : keyword ≠ []
  isIdentRest : ∀ k ∈ keyword, Text.isIdentRest k = true

theorem IsKeyword.isGap_eq_false (h : IsKeyword keyword) : ∀ k ∈ keyword, isGap k = false :=
  fun k hk => isGap_eq_false_of_isIdentRest (h.isIdentRest k hk)

/-- No lexeme of several characters begins in a keyword. -/
theorem IsKeyword.isPlain (h : IsKeyword keyword) : ∀ k ∈ keyword, isPlain k = true :=
  fun k hk => isPlain_of_class (h.isIdentRest k hk) (by decide)

theorem isPrefixOf?_cons_cons (c : Char) (front : List Char) (d : Char) (cs : List Char) :
    (c :: front).isPrefixOf? (d :: cs) = if c == d then front.isPrefixOf? cs else none :=
  rfl

/-- In front of what is no gap, a header begins with its keyword. -/
theorem header?_of_not_gap {c : Char} {rest : List Char} (hc : isGap c = false) :
    header? keyword (c :: rest) = (keyword.isPrefixOf? (c :: rest)).bind labels? := by
  rw [header?, if_neg (by simp [hc])]

/-- A gap in front of a line makes no difference, as no keyword begins with one. -/
theorem header?_gap (h : IsKeyword keyword) {c : Char} {rest : List Char} (hc : isGap c = true) :
    header? keyword (c :: rest) = header? keyword rest := by
  obtain ⟨k, ks, rfl⟩ := List.exists_cons_of_ne_nil h.ne_nil
  have hk : isGap k = false := h.isGap_eq_false k List.mem_cons_self
  have hother : (k :: ks).isPrefixOf? (c :: rest) = none := by
    rw [isPrefixOf?_cons_cons, if_neg]
    rintro heq
    rw [beq_iff_eq.mp heq, hc] at hk
    cases hk
  rw [header?, if_pos hc, hother]
  simp

/-- A line that begins with another character than the keyword. -/
theorem header?_eq_none_of_ne {c k : Char} {ks rest : List Char} (hc : isGap c = false)
    (hne : k ≠ c) : header? (k :: ks) (c :: rest) = none := by
  rw [header?_of_not_gap hc, isPrefixOf?_cons_cons, if_neg (by simpa using hne)]
  rfl

/-- A line that only closes a block. -/
theorem header?_closeBrace (h : IsKeyword keyword) (rest : List Char) :
    header? keyword ('}' :: rest) = none := by
  obtain ⟨k, ks, rfl⟩ := List.exists_cons_of_ne_nil h.ne_nil
  exact header?_eq_none_of_ne (by decide)
    (Text.ne_of_class (h.isIdentRest k List.mem_cons_self) (by decide))

/-- A keyword with two labels and a brace. -/
theorem header?_labels (h : IsKeyword keyword) {type name : List Char}
    (htype : '"' ∉ type ∧ '\n' ∉ type) (hname : '"' ∉ name ∧ '\n' ∉ name) (rest : List Char) :
    header? keyword (keyword ++ ' ' :: '"' :: (type ++ '"' :: ' ' :: '"' ::
      (name ++ '"' :: ' ' :: '{' :: rest))) = some ([type, name], rest) := by
  obtain ⟨k, ks, rfl⟩ := List.exists_cons_of_ne_nil h.ne_nil
  have hk : isGap k = false := h.isGap_eq_false k List.mem_cons_self
  rw [List.cons_append, header?_of_not_gap hk, ← List.cons_append,
    List.isPrefixOf?_eq_some_iff_append_eq.mpr rfl, Option.bind_some, labels?_cons htype.1 htype.2,
    labels?_cons hname.1 hname.2, labels?_openBrace]
  rfl

/-- A name with an equals sign behind it is no header, whatever name it is. -/
theorem header?_assignment (h : IsKeyword keyword) {word rest : List Char} (hne : word ≠ [])
    (hword : ∀ c ∈ word, isGap c = false ∧ c ≠ '{' ∧ c ≠ '"') :
    header? keyword (word ++ ' ' :: '=' :: rest) = none := by
  obtain ⟨c, word, rfl⟩ := List.exists_cons_of_ne_nil hne
  rw [List.cons_append, header?_of_not_gap (hword c List.mem_cons_self).1, ← List.cons_append]
  cases hprefix : keyword.isPrefixOf? (c :: word ++ ' ' :: '=' :: rest) with
  | none => rfl
  | some left =>
    -- The keyword ends within the name, as it holds no gap, and no label follows.
    rw [Option.bind_some]
    rcases List.append_eq_append_iff.mp (List.append_eq_of_isPrefixOf?_eq_some hprefix).symm with
      ⟨more, hkey, hleft⟩ | ⟨more, hkey, hleft⟩
    · cases more with
      | nil =>
        rw [List.nil_append] at hleft
        rw [← hleft, labels?, if_pos (by decide), labels?, if_neg (by decide)]
        all_goals decide
      | cons d more =>
        obtain ⟨rfl, -⟩ := List.cons.inj hleft
        exact absurd (h.isGap_eq_false ' ' (by simp [hkey])) (by decide)
    -- The name goes on behind the keyword, and what goes on is neither a gap nor a label.
    · cases more with
      | nil =>
        rw [List.nil_append] at hleft
        rw [hleft, labels?, if_pos (by decide), labels?, if_neg (by decide)]
        all_goals decide
      | cons d more =>
        have hd := hword d (by rw [hkey]; simp)
        rw [hleft, List.cons_append, labels?, if_neg (by simp [hd.1])]
        · exact hd.2.1
        · exact hd.2.2

/-! ## Many lines -/

/-- A line that is no header of a keyword. -/
def IsNoHeader (keyword line : List Char) : Prop :=
  '\n' ∉ line ∧ ∀ rest, header? keyword (line ++ '\n' :: rest) = none

theorem headersFrom_unlines {lines : List (List Char)}
    (h : ∀ line ∈ lines, IsNoHeader keyword line) (offset : Nat) (rest : List Char) :
    headersFrom keyword offset true 0 (unlines lines ++ rest) =
      headersFrom keyword (offset + (unlines lines).length) true 0 rest := by
  induction lines generalizing offset with
  | nil => rfl
  | cons line lines ih =>
    obtain ⟨hline, hnone⟩ := h line List.mem_cons_self
    have hrest := ih (fun l hl => h l (List.mem_cons_of_mem _ hl)) (offset + line.length + 1)
    rw [unlines_cons, List.append_assoc, List.cons_append, headersFrom_line hline (hnone _), hrest]
    congr 1
    simp only [List.length_append, List.length_cons]
    omega

end Schematic.Hcl
