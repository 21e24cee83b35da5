import Schematic.Proofs.Diagram.Line

/-!
# The body of a markup

In a body every group is closed before the next one opens, and a class stands right behind the
node that it is given to. The body is described as lines in their order, with a flag that says
whether a group is open, and each property follows by induction on this description.

## Main definitions

- `IsBody` — the lines of a body
- `HasNodeForm`, `IsClassOf` — what a node and a class of it look like

## Main statements

- `IsBody.countP_isEndLine`, `IsBody.countP_front` — groups are closed and not nested
- `IsBody.hasNodeForm`, `IsBody.classesFollow` — nodes and their classes
-/

namespace Schematic.Diagram

/-! ## The lines of a body -/

/-- The lines of a body from some point on, inside a group or not. -/
inductive IsBody (palette : List String) : Bool → List (List Char) → Prop where
  | nil : IsBody palette false []
  | opened {line : List Char} {rest : List (List Char)} (hline : isGroupLine line = true)
      (h : IsBody palette true rest) : IsBody palette false (line :: rest)
  | closed {line : List Char} {rest : List (List Char)} (hline : isEndLine line = true)
      (h : IsBody palette false rest) : IsBody palette true (line :: rest)
  | node {inGroup : Bool} {depth : Nat} {id label : List Char} {rest : List (List Char)}
      (hid : IsNodeId id) (hlabel : IsLabel label) (h : IsBody palette inGroup rest) :
      IsBody palette inGroup (nodeLine depth id label :: rest)
  | styled {inGroup : Bool} {depth : Nat} {id label : List Char} {name : String}
      {rest : List (List Char)} (hid : IsNodeId id) (hlabel : IsLabel label)
      (hname : name ∈ palette) (h : IsBody palette inGroup rest) :
      IsBody palette inGroup
        (nodeLine depth id label :: classLine depth id name.toList :: rest)

/-- A line with the form of a node. -/
def HasNodeForm (line : List Char) : Prop :=
  ∃ depth id label, line = nodeLine depth id label ∧ IsNodeId id ∧ IsLabel label

/-- A line that gives the node on the line before it a class of a palette. -/
def IsClassOf (palette : List String) (before : List (List Char)) (line : List Char) : Prop :=
  ∃ front depth id label name, before = front ++ [nodeLine depth id label] ∧
    line = classLine depth id (String.toList name) ∧ IsNodeId id ∧ name ∈ palette

theorem firstWord_of_isGroupLine {line : List Char} (h : isGroupLine line = true) :
    firstWord line = "subgraph".toList :=
  beq_iff_eq.mp h

theorem firstWord_of_isEndLine {line : List Char} (h : isEndLine line = true) :
    firstWord line = "end".toList :=
  beq_iff_eq.mp h

theorem firstWord_of_isClassLine {line : List Char} (h : isClassLine line = true) :
    firstWord line = "class".toList :=
  beq_iff_eq.mp h

namespace IsBody

variable {palette : List String} {inGroup : Bool} {lines : List (List Char)}

theorem isBodyLine (h : IsBody palette inGroup lines) : ∀ line ∈ lines,
    isGroupLine line = true ∨ isNodeLine line = true ∨ isClassLine line = true ∨
      isEndLine line = true := by
  induction h with
  | nil => simp
  | opened hline _ ih =>
    rw [List.forall_mem_cons]
    exact ⟨.inl hline, ih⟩
  | closed hline _ ih =>
    rw [List.forall_mem_cons]
    exact ⟨.inr (.inr (.inr hline)), ih⟩
  | node hid _ _ ih =>
    rw [List.forall_mem_cons]
    exact ⟨.inr (.inl (isNodeLine_nodeLine _ hid _)), ih⟩
  | styled hid _ _ _ ih =>
    rw [List.forall_mem_cons, List.forall_mem_cons]
    exact ⟨.inr (.inl (isNodeLine_nodeLine _ hid _)),
      .inr (.inr (.inl (isClassLine_classLine _ _ _))), ih⟩

/-- Every node of a body has the form of one. -/
theorem hasNodeForm (h : IsBody palette inGroup lines) :
    ∀ line ∈ lines, isNodeLine line = true → HasNodeForm line := by
  have hother {line word : List Char} (hword : firstWord line = word) (hbracket : '[' ∉ word)
      (hnode : isNodeLine line = true) : HasNodeForm line := by
    rw [isNodeLine_eq_false hword hbracket] at hnode
    cases hnode
  induction h with
  | nil => simp
  | opened hline _ ih =>
    rw [List.forall_mem_cons]
    exact ⟨hother (firstWord_of_isGroupLine hline) (by decide), ih⟩
  | closed hline _ ih =>
    rw [List.forall_mem_cons]
    exact ⟨hother (firstWord_of_isEndLine hline) (by decide), ih⟩
  | node hid hlabel _ ih =>
    rw [List.forall_mem_cons]
    exact ⟨fun _ => ⟨_, _, _, rfl, hid, hlabel⟩, ih⟩
  | styled hid hlabel _ _ ih =>
    rw [List.forall_mem_cons, List.forall_mem_cons]
    exact ⟨fun _ => ⟨_, _, _, rfl, hid, hlabel⟩,
      hother (firstWord_of_isClassLine (isClassLine_classLine _ _ _)) (by decide), ih⟩

/-! ## Groups -/

/-- How many groups are open. -/
def openCount (inGroup : Bool) : Nat :=
  if inGroup then 1 else 0

theorem isGroupLine_nodeLine {id : List Char} (depth : Nat) (hid : IsNodeId id)
    (label : List Char) : isGroupLine (nodeLine depth id label) = false :=
  beq_eq_false_iff_ne.mpr (firstWord_nodeLine_ne depth hid label (by decide))

theorem isEndLine_nodeLine {id : List Char} (depth : Nat) (hid : IsNodeId id)
    (label : List Char) : isEndLine (nodeLine depth id label) = false :=
  beq_eq_false_iff_ne.mpr (firstWord_nodeLine_ne depth hid label (by decide))

theorem isGroupLine_classLine (depth : Nat) (id name : List Char) :
    isGroupLine (classLine depth id name) = false := by
  rw [isGroupLine, firstWord_of_isClassLine (isClassLine_classLine _ _ _)]
  decide

theorem isEndLine_classLine (depth : Nat) (id name : List Char) :
    isEndLine (classLine depth id name) = false := by
  rw [isEndLine, firstWord_of_isClassLine (isClassLine_classLine _ _ _)]
  decide

theorem isEndLine_of_isGroupLine {line : List Char} (h : isGroupLine line = true) :
    isEndLine line = false := by
  rw [isEndLine, firstWord_of_isGroupLine h]
  decide

theorem isGroupLine_of_isEndLine {line : List Char} (h : isEndLine line = true) :
    isGroupLine line = false := by
  rw [isGroupLine, firstWord_of_isEndLine h]
  decide

/-- As many groups are closed as are opened and were open before. -/
theorem countP_isEndLine (h : IsBody palette inGroup lines) :
    lines.countP isEndLine = lines.countP isGroupLine + openCount inGroup := by
  induction h with
  | nil => rfl
  | opened hline _ ih =>
    rw [List.countP_cons_of_neg (by simp [isEndLine_of_isGroupLine hline]),
      List.countP_cons_of_pos hline, ih]
    rfl
  | closed hline _ ih =>
    rw [List.countP_cons_of_pos hline,
      List.countP_cons_of_neg (by simp [isGroupLine_of_isEndLine hline]), ih]
    rfl
  | node hid _ _ ih =>
    rw [List.countP_cons_of_neg (by simp [isEndLine_nodeLine _ hid]),
      List.countP_cons_of_neg (by simp [isGroupLine_nodeLine _ hid]), ih]
  | styled hid _ _ _ ih =>
    rw [List.countP_cons_of_neg (by simp [isEndLine_nodeLine _ hid]),
      List.countP_cons_of_neg (by simp [isEndLine_classLine]),
      List.countP_cons_of_neg (by simp [isGroupLine_nodeLine _ hid]),
      List.countP_cons_of_neg (by simp [isGroupLine_classLine]), ih]

/-- Up to every line at most one group is open. -/
theorem countP_front (h : IsBody palette inGroup lines) : ∀ front, front <+: lines →
    front.countP isEndLine ≤ front.countP isGroupLine + openCount inGroup ∧
      front.countP isGroupLine + openCount inGroup ≤ front.countP isEndLine + 1 := by
  have hnil (inGroup : Bool) : openCount inGroup ≤ 1 := by cases inGroup <;> decide
  -- A line that is about no group changes neither count.
  have hskip {line : List Char} {front : List (List Char)} {inGroup : Bool}
      (hgroup : isGroupLine line = false) (hend : isEndLine line = false)
      (h : front.countP isEndLine ≤ front.countP isGroupLine + openCount inGroup ∧
        front.countP isGroupLine + openCount inGroup ≤ front.countP isEndLine + 1) :
      (line :: front).countP isEndLine ≤ (line :: front).countP isGroupLine + openCount inGroup ∧
        (line :: front).countP isGroupLine + openCount inGroup ≤
          (line :: front).countP isEndLine + 1 := by
    rw [List.countP_cons_of_neg (by simp [hend]), List.countP_cons_of_neg (by simp [hgroup])]
    exact h
  induction h with
  | nil =>
    intro front hfront
    rw [List.prefix_nil.mp hfront]
    decide
  | @opened line rest hline _ ih =>
    intro front hfront
    rcases List.prefix_cons_iff.mp hfront with rfl | ⟨tail, rfl, htail⟩
    · decide
    · obtain ⟨hle, hge⟩ := ih tail htail
      rw [List.countP_cons_of_neg (by simp [isEndLine_of_isGroupLine hline]),
        List.countP_cons_of_pos hline]
      simp only [openCount, if_true, Bool.false_eq_true, if_false] at hle hge ⊢
      omega
  | @closed line rest hline _ ih =>
    intro front hfront
    rcases List.prefix_cons_iff.mp hfront with rfl | ⟨tail, rfl, htail⟩
    · decide
    · obtain ⟨hle, hge⟩ := ih tail htail
      rw [List.countP_cons_of_pos hline,
        List.countP_cons_of_neg (by simp [isGroupLine_of_isEndLine hline])]
      simp only [openCount, if_true, Bool.false_eq_true, if_false] at hle hge ⊢
      omega
  | @node inGroup depth id label rest hid _ _ ih =>
    intro front hfront
    rcases List.prefix_cons_iff.mp hfront with rfl | ⟨tail, rfl, htail⟩
    · simpa using hnil inGroup
    · exact hskip (isGroupLine_nodeLine depth hid label) (isEndLine_nodeLine depth hid label)
        (ih tail htail)
  | @styled inGroup depth id label name rest hid _ _ _ ih =>
    intro front hfront
    rcases List.prefix_cons_iff.mp hfront with rfl | ⟨tail, rfl, htail⟩
    · simpa using hnil inGroup
    -- The front may end between a node and its class.
    · apply hskip (isGroupLine_nodeLine depth hid label) (isEndLine_nodeLine depth hid label)
      rcases List.prefix_cons_iff.mp htail with rfl | ⟨more, rfl, hmore⟩
      · simpa using hnil inGroup
      · exact hskip (isGroupLine_classLine _ _ _) (isEndLine_classLine _ _ _) (ih more hmore)

end IsBody

/-! ## Classes -/

/-- Every class stands right behind its node. -/
def ClassesFollow (palette : List String) (lines : List (List Char)) : Prop :=
  ∀ before line behind, lines = before ++ line :: behind → isClassLine line = true →
    IsClassOf palette before line

namespace ClassesFollow

variable {palette : List String} {lines : List (List Char)}

theorem nil : ClassesFollow palette [] := by
  intro before line behind heq
  simp at heq

/-- A line that is no class in front of others. -/
theorem cons {first : List Char} (hfirst : isClassLine first = false)
    (h : ClassesFollow palette lines) : ClassesFollow palette (first :: lines) := by
  intro before line behind heq hclass
  cases before with
  | nil =>
    rw [← (List.cons.inj heq).1, hfirst] at hclass
    cases hclass
  | cons b before =>
    obtain ⟨hb, hrest⟩ := List.cons.inj heq
    obtain ⟨front, depth, id, label, name, rfl, hline⟩ := h before line behind hrest hclass
    exact ⟨b :: front, depth, id, label, name, rfl, hline⟩

/-- A node and its class in front of others. -/
theorem cons_class {depth : Nat} {id label : List Char} {name : String} (hid : IsNodeId id)
    (hname : name ∈ palette) (h : ClassesFollow palette lines) : ClassesFollow palette
      (nodeLine depth id label :: classLine depth id name.toList :: lines) := by
  intro before line behind heq hclass
  have hnode : isClassLine (nodeLine depth id label) = false :=
    beq_eq_false_iff_ne.mpr (firstWord_nodeLine_ne depth hid label (by decide))
  match before with
  | [] =>
    rw [← (List.cons.inj heq).1, hnode] at hclass
    cases hclass
  -- Behind one line stands the class, and that line is its node.
  | [b] =>
    obtain ⟨hb, hrest⟩ := List.cons.inj heq
    obtain ⟨hline, -⟩ := List.cons.inj hrest
    exact ⟨[], depth, id, label, name, by rw [← hb]; rfl, hline.symm, hid, hname⟩
  | b :: b' :: before =>
    obtain ⟨hb, hrest⟩ := List.cons.inj heq
    obtain ⟨hb', hrest⟩ := List.cons.inj hrest
    obtain ⟨front, depth, id, label, name, rfl, hline⟩ := h before line behind hrest hclass
    exact ⟨b :: b' :: front, depth, id, label, name, rfl, hline⟩

/-- Lines that are no classes behind others. -/
theorem append {more : List (List Char)} (h : ClassesFollow palette lines)
    (hmore : ∀ line ∈ more, isClassLine line = false) : ClassesFollow palette (lines ++ more) := by
  intro before line behind heq hclass
  -- The class is cut off in the lines behind or in those in front.
  rcases List.append_eq_append_iff.mp heq with ⟨middle, -, hline⟩ | ⟨middle, hbefore, hline⟩
  · have hmem : line ∈ more := by
      rw [hline]
      simp
    rw [hmore line hmem] at hclass
    cases hclass
  · cases middle with
    | nil =>
      have hmem : line ∈ more := by
        rw [← List.nil_append more, ← hline]
        simp
      rw [hmore line hmem] at hclass
      cases hclass
    | cons c middle =>
      obtain ⟨rfl, -⟩ := List.cons.inj hline
      exact h before line middle hbefore hclass

end ClassesFollow

/-- Every class of a body stands right behind its node. -/
theorem IsBody.classesFollow {palette : List String} {inGroup : Bool} {lines : List (List Char)}
    (h : IsBody palette inGroup lines) : ClassesFollow palette lines := by
  induction h with
  | nil => exact ClassesFollow.nil
  | opened hline _ ih =>
    refine ih.cons ?_
    rw [isClassLine, firstWord_of_isGroupLine hline]
    decide
  | closed hline _ ih =>
    refine ih.cons ?_
    rw [isClassLine, firstWord_of_isEndLine hline]
    decide
  | @node inGroup depth id label rest hid _ _ ih =>
    exact ih.cons (beq_eq_false_iff_ne.mpr (firstWord_nodeLine_ne depth hid label (by decide)))
  | styled hid _ hname _ ih => exact ih.cons_class hid hname

end Schematic.Diagram
