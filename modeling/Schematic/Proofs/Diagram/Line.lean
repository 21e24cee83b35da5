import Schematic.Diagram.Markup
import Schematic.Proofs.Diagram.Sound
import Schematic.Proofs.Text.Search

/-!
# Lines of a markup

What a line of a markup states is seen from its first word: a group opens with `subgraph` and
closes with `end`, a node is given its class with `class`, a class its look with `classDef`, and
the first word of a node goes on in brackets. The lines that are drawn are told apart in this way,
as identifiers are no such words and hold neither blanks nor brackets.

## Main definitions

- `firstWord`, `isNodeLine`, `isGroupLine`, `isEndLine`, `isClassLine`, `isStyleLine` — lines by
  their first word
- `nodeLine`, `classLine`, `edgeLine` — lines as characters

## Main statements

- `firstWord_eq` — the first word behind an indentation
- `eq_of_toList_line_eq` — edges with the same line are the same
-/

namespace Schematic.Diagram

/-! ## Lines by their first word -/

/-- The first word of a line. -/
def firstWord (line : List Char) : List Char :=
  (line.dropWhile (· == ' ')).takeWhile (· != ' ')

/-- A line whose first word goes on in brackets. -/
def isNodeLine (line : List Char) : Bool :=
  (firstWord line).contains '['

def isGroupLine (line : List Char) : Bool :=
  firstWord line == "subgraph".toList

def isEndLine (line : List Char) : Bool :=
  firstWord line == "end".toList

def isClassLine (line : List Char) : Bool :=
  firstWord line == "class".toList

def isStyleLine (line : List Char) : Bool :=
  firstWord line == "classDef".toList

theorem firstWord_replicate (n : Nat) {c : Char} (hc : c ≠ ' ') (rest : List Char) :
    firstWord (List.replicate n ' ' ++ c :: rest) = (c :: rest).takeWhile (· != ' ') := by
  have hblank : ∀ d ∈ List.replicate n ' ', (d == ' ') = true := by
    intro d hd
    rw [List.eq_of_mem_replicate hd]
    rfl
  rw [firstWord, List.dropWhile_append_of_pos hblank,
    List.dropWhile_cons_of_neg (by simpa using hc)]

/-- A word behind an indentation, at the end of a line or with a blank behind it. -/
theorem firstWord_eq (n : Nat) {word : List Char} (hne : word ≠ []) (hword : ' ' ∉ word)
    {rest : List Char} (hrest : rest.head?.all (· == ' ') = true) :
    firstWord (List.replicate n ' ' ++ (word ++ rest)) = word := by
  obtain ⟨c, word, rfl⟩ := List.exists_cons_of_ne_nil hne
  have hall : ∀ d ∈ c :: word, (d != ' ') = true := by
    intro d hd
    rw [bne_iff_ne]
    rintro rfl
    exact hword hd
  have hstop : rest.takeWhile (· != ' ') = [] := by
    cases rest with
    | nil => rfl
    | cons d rest => exact List.takeWhile_cons_of_neg (by simpa using hrest)
  have hc : c ≠ ' ' := by simpa using hall c List.mem_cons_self
  rw [List.cons_append, firstWord_replicate n hc, ← List.cons_append,
    List.takeWhile_append_of_pos hall, hstop, List.append_nil]

theorem isNodeLine_eq_false {line word : List Char} (h : firstWord line = word)
    (hword : '[' ∉ word) : isNodeLine line = false := by
  rw [isNodeLine, h, ← Bool.not_eq_true, List.contains_iff_mem]
  exact hword

/-! ## Indentation -/

theorem toList_indent (depth : Nat) : (indent depth).toList = List.replicate (4 * depth) ' ' := by
  rw [indent, String.toList_ofList]

theorem feed_not_mem_replicate (n : Nat) : '\n' ∉ List.replicate n ' ' := by
  intro h
  exact absurd (List.eq_of_mem_replicate h) (by decide)

/-! ## Nodes -/

/-- The line of a node at a depth. -/
def nodeLine (depth : Nat) (id label : List Char) : List Char :=
  List.replicate (4 * depth) ' ' ++ (id ++ '[' :: '"' :: (label ++ ['"', ']']))

theorem toList_labelled (id label : String) :
    (labelled id label).toList = id.toList ++ '[' :: '"' :: (label.toList ++ ['"', ']']) := by
  unfold labelled
  simp only [String.toList_append, List.append_assoc]
  rfl

theorem toList_nodeLine (depth : Nat) (id label : String) :
    (indent depth ++ labelled id label).toList = nodeLine depth id.toList label.toList := by
  rw [String.toList_append, toList_indent, toList_labelled]
  rfl

theorem feed_not_mem_labelled {id label : List Char} (hid : '\n' ∉ id) (hlabel : '\n' ∉ label) :
    '\n' ∉ id ++ '[' :: '"' :: (label ++ ['"', ']']) := by
  simp only [List.mem_append, List.mem_cons, hid, hlabel]
  decide

section Node

variable {id label : List Char}

theorem isNodeLine_nodeLine (depth : Nat) (hid : IsNodeId id) (label : List Char) :
    isNodeLine (nodeLine depth id label) = true := by
  obtain ⟨c, rest, rfl⟩ := List.exists_cons_of_ne_nil hid.ne_nil
  have hall : ∀ d ∈ c :: rest, (d != ' ') = true := by
    intro d hd
    rw [bne_iff_ne]
    rintro rfl
    exact hid.blank_not_mem hd
  have hc : c ≠ ' ' := by simpa using hall c List.mem_cons_self
  rw [isNodeLine, nodeLine, List.cons_append, firstWord_replicate _ hc, ← List.cons_append,
    List.takeWhile_append_of_pos hall, List.takeWhile_cons_of_pos (by decide),
    List.contains_iff_mem]
  simp

/-- A node is none of the lines that begin with a word. -/
theorem firstWord_nodeLine_ne (depth : Nat) (hid : IsNodeId id) (label : List Char)
    {word : List Char} (hword : '[' ∉ word) : firstWord (nodeLine depth id label) ≠ word := by
  intro h
  have hnode := isNodeLine_nodeLine depth hid label
  rw [isNodeLine_eq_false h hword] at hnode
  cases hnode

theorem feed_not_mem_nodeLine (depth : Nat) (hid : IsNodeId id) (hlabel : IsLabel label) :
    '\n' ∉ nodeLine depth id label := by
  intro h
  rcases List.mem_append.mp h with h | h
  · exact feed_not_mem_replicate _ h
  · exact feed_not_mem_labelled hid.feed_not_mem hlabel.2 h

end Node

/-! ## Words with something behind them -/

/-- The line of a statement: a word and what stands behind it. -/
def wordLine (depth : Nat) (word rest : List Char) : List Char :=
  List.replicate (4 * depth) ' ' ++ (word ++ ' ' :: rest)

theorem firstWord_wordLine (depth : Nat) {word : List Char} (hne : word ≠ []) (hword : ' ' ∉ word)
    (rest : List Char) : firstWord (wordLine depth word rest) = word :=
  firstWord_eq _ hne hword rfl

theorem feed_not_mem_wordLine (depth : Nat) {word rest : List Char} (hword : '\n' ∉ word)
    (hrest : '\n' ∉ rest) : '\n' ∉ wordLine depth word rest := by
  unfold wordLine
  simp only [List.mem_append, List.mem_cons, feed_not_mem_replicate, hword, hrest]
  decide

/-- The line that gives a node its class. -/
def classLine (depth : Nat) (id name : List Char) : List Char :=
  wordLine depth "class".toList (id ++ ' ' :: name)

theorem isClassLine_classLine (depth : Nat) (id name : List Char) :
    isClassLine (classLine depth id name) = true := by
  rw [isClassLine, classLine, firstWord_wordLine _ (by decide) (by decide), beq_self_eq_true]

theorem toList_classLine (depth : Nat) (id name : String) :
    (indent depth ++ "class " ++ id ++ " " ++ name).toList =
      classLine depth id.toList name.toList := by
  simp only [String.toList_append, toList_indent, List.append_assoc]
  rfl

/-- The line that opens a group. -/
theorem toList_groupLine (depth : Nat) (id title : String) :
    (indent depth ++ "subgraph " ++ labelled id title).toList =
      wordLine depth "subgraph".toList
        (id.toList ++ '[' :: '"' :: (title.toList ++ ['"', ']'])) := by
  rw [String.toList_append, String.toList_append, toList_indent, toList_labelled,
    List.append_assoc]
  rfl

/-- The line that closes a group. -/
theorem firstWord_toList_endLine (depth : Nat) :
    firstWord (indent depth ++ "end").toList = "end".toList := by
  rw [String.toList_append, toList_indent, ← List.append_nil "end".toList]
  exact firstWord_eq _ (by decide) (by decide) rfl

/-- The line that gives a class its look. -/
theorem toList_styleLine (style : Style) : (styleLine style).toList =
    wordLine 1 "classDef".toList (style.name.toList ++ ' ' :: style.look.toList) := by
  unfold styleLine
  simp only [String.toList_append, toList_indent, List.append_assoc]
  rfl

theorem feed_not_mem_name (style : Style) : '\n' ∉ style.name.toList := by
  cases style <;> decide

theorem feed_not_mem_styleLine (style : Style) : '\n' ∉ (styleLine style).toList := by
  have hpaint : '\n' ∉ style.paint.toList := by cases style <;> decide
  have hstroke : '\n' ∉ ",stroke-width:2px,color:#000".toList := by decide
  have hlook : '\n' ∉ style.look.toList := by
    rw [Style.look, String.toList_append, List.mem_append]
    exact not_or.mpr ⟨hpaint, hstroke⟩
  rw [toList_styleLine]
  apply feed_not_mem_wordLine 1 (by decide)
  rw [List.mem_append, List.mem_cons]
  exact not_or.mpr ⟨feed_not_mem_name style, not_or.mpr ⟨by decide, hlook⟩⟩

/-! ## Edges -/

/-- The arrow of an edge with its label. -/
def arrow (dotted : Bool) (label : Option (List Char)) : List Char :=
  (if dotted then ['-', '.', '-', '>'] else ['-', '-', '>']) ++
    match label with
    | none => []
    | some label => '|' :: (label ++ ['|'])

/-- The line of an edge. -/
def edgeLine (source target : List Char) (label : Option (List Char)) (dotted : Bool) :
    List Char :=
  wordLine 1 source (arrow dotted label ++ ' ' :: target)

theorem toList_edgeLine (e : Edge) : e.line.toList =
    edgeLine e.source.toList e.target.toList (e.label.map String.toList) e.dotted := by
  unfold Edge.line
  simp only [String.toList_append, toList_indent]
  cases e.label <;> cases e.dotted <;>
    simp [edgeLine, wordLine, arrow]

theorem feed_not_mem_edgeLine {e : Edge} (h : e.IsSound) : '\n' ∉ e.line.toList := by
  rw [toList_edgeLine]
  have harrow : '\n' ∉ arrow e.dotted (e.label.map String.toList) := by
    unfold arrow
    cases hlabel : e.label with
    | none => cases e.dotted <;> decide
    | some label =>
      have hfeed := (h.label label hlabel).2
      cases e.dotted <;> simp [hfeed]
  have htarget : '\n' ∉ e.target.toList := h.target.feed_not_mem
  apply feed_not_mem_wordLine 1 h.source.feed_not_mem
  simp only [List.mem_append, List.mem_cons, harrow, htarget]
  decide

/-- An edge is told by the identifier that it starts at. -/
theorem firstWord_edgeLine {e : Edge} (h : e.IsSound) :
    firstWord e.line.toList = e.source.toList := by
  rw [toList_edgeLine]
  exact firstWord_wordLine 1 h.source.ne_nil h.source.blank_not_mem _

/-- The parts around the first blank. -/
theorem append_blank_inj {front front' back back' : List Char} (hfront : ' ' ∉ front)
    (hfront' : ' ' ∉ front') (h : front ++ ' ' :: back = front' ++ ' ' :: back') :
    front = front' ∧ back = back' := by
  have hcut := congrArg (Text.cutAtChar? ' ') h
  rw [Text.cutAtChar?_append hfront, Text.cutAtChar?_append hfront'] at hcut
  exact Prod.mk.inj (Option.some.inj hcut)

/-- The parts around the last blank. -/
theorem append_blank_inj_last {front front' back back' : List Char} (hback : ' ' ∉ back)
    (hback' : ' ' ∉ back') (h : front ++ ' ' :: back = front' ++ ' ' :: back') :
    front = front' ∧ back = back' := by
  -- Backwards the last blank is the first.
  have hreverse := congrArg List.reverse h
  simp only [List.reverse_append, List.reverse_cons, List.append_assoc] at hreverse
  obtain ⟨hb, hf⟩ := append_blank_inj (by simpa using hback) (by simpa using hback') hreverse
  exact ⟨List.reverse_inj.mp hf, List.reverse_inj.mp hb⟩

theorem arrow_inj {dotted dotted' : Bool} {label label' : Option (List Char)}
    (h : arrow dotted label = arrow dotted' label') : dotted = dotted' ∧ label = label' := by
  cases dotted <;> cases dotted' <;> cases label <;> cases label' <;> simp [arrow] at h ⊢ <;>
    exact h

/-- Edges with the same line are the same: blanks cut the identifiers off at both ends, and what
is left between them is the arrow with the label. -/
theorem eq_of_toList_line_eq {e f : Edge} (he : e.IsSound) (hf : f.IsSound)
    (h : e.line.toList = f.line.toList) : e = f := by
  obtain ⟨source, target, label, dotted⟩ := e
  obtain ⟨source', target', label', dotted'⟩ := f
  rw [toList_edgeLine, toList_edgeLine] at h
  -- A label may hold blanks, so the first blank and the last one are what to cut at.
  obtain ⟨hsource, h⟩ := append_blank_inj he.source.blank_not_mem
    hf.source.blank_not_mem (List.append_cancel_left h)
  obtain ⟨harrow, htarget⟩ := append_blank_inj_last he.target.blank_not_mem
    hf.target.blank_not_mem h
  obtain ⟨hdotted, hlabel⟩ := arrow_inj harrow
  obtain rfl := String.toList_inj.mp hsource
  obtain rfl := String.toList_inj.mp htarget
  obtain rfl : dotted = dotted' := hdotted
  obtain rfl : label = label' :=
    Option.map_injective (fun _ _ => String.toList_inj.mp) hlabel
  rfl

end Schematic.Diagram
