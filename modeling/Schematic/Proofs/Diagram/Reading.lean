import Schematic.Proofs.Diagram.Body
import Schematic.Proofs.Diagram.Legible

/-!
# Reading a markup back

What a diagram says can be read off its markup. Every line begins with a word that tells what it
states, so the body, the edges and the styles are found by looking at the first words, and behind
these words stand the identifiers, labels and class names. Two diagrams with one markup therefore
say the same, whatever texts their names and labels were made of.

## Main definitions

- `drawnEvents` — the events of a diagram with the identifiers that its groups are drawn under
- `eventsOf`, `nodeIdsOf`, `edgeLinesOf`, `stylesOf` — what lines state

## Main statements

- `eventsOf_bodyLines` — the events are read back from the lines of the body
- `IsLegible.nodeIdsOf_lines`, `IsLegible.edgeLinesOf_lines` — so are the identifiers of the nodes
  and the lines of the edges
- `IsLegible.lines_eq_iff` — legible diagrams have the same lines if and only if they say the same
- `render_ofSteps_eq_iff` — the same for the markup of what is drawn step by step
-/

namespace Schematic.Diagram

/-! ## What groups are called in the end -/

/-- Events with the final identifiers of the groups, one for each that opens. -/
def named (groups : List String) : List Event → List Event
  | [] => []
  | .opened id title :: rest => .opened (groups.head?.getD id) title :: named groups.tail rest
  | .closed :: rest => .closed :: named groups rest
  | .declared id label style :: rest => .declared id label style :: named groups rest

/-- The events of a diagram as they are drawn. -/
def drawnEvents (d : Diagram) : List Event :=
  named d.groupIds d.events

/-- The identifier of a node that an event declares. -/
def declaredId? : Event → Option String
  | .declared id _ _ => some id
  | _ => none

/-- Nodes keep their identifiers, whatever the groups are called. -/
theorem filterMap_named (groups : List String) (events : List Event) :
    (named groups events).filterMap declaredId? = events.filterMap declaredId? := by
  induction events generalizing groups with
  | nil => rfl
  | cons e events ih =>
    cases e with
    | opened id title => exact ih groups.tail
    | closed => exact ih groups
    | declared id label style => exact congrArg (id :: ·) (ih groups)

/-! ## Parts of a line -/

/-- What stands behind the first word of a line and the blank after it. -/
def afterWord (line : List Char) : List Char :=
  ((line.dropWhile (· == ' ')).dropWhile (· != ' ')).tail

/-- An identifier, and the label that stands behind it in brackets and quotes. -/
def labelledParts (cs : List Char) : List Char × List Char :=
  (cs.takeWhile (· != '['), ((cs.dropWhile (· != '[')).drop 2).dropLast.dropLast)

theorem dropWhile_replicate (n : Nat) {c : Char} (hc : c ≠ ' ') (rest : List Char) :
    (List.replicate n ' ' ++ c :: rest).dropWhile (· == ' ') = c :: rest := by
  have hblank : ∀ d ∈ List.replicate n ' ', (d == ' ') = true := by
    intro d hd
    rw [List.eq_of_mem_replicate hd]
    rfl
  rw [List.dropWhile_append_of_pos hblank, List.dropWhile_cons_of_neg (by simpa using hc)]

theorem afterWord_wordLine (depth : Nat) {word : List Char} (hne : word ≠ [])
    (hword : ' ' ∉ word) (rest : List Char) : afterWord (wordLine depth word rest) = rest := by
  have hall : ∀ d ∈ word, (d != ' ') = true := by
    intro d hd
    rw [bne_iff_ne]
    rintro rfl
    exact hword hd
  have hskip : (word ++ ' ' :: rest).dropWhile (· != ' ') = ' ' :: rest := by
    rw [List.dropWhile_append_of_pos hall]
    rfl
  obtain ⟨c, word, rfl⟩ := List.exists_cons_of_ne_nil hne
  have hc : c ≠ ' ' := by simpa using hall c List.mem_cons_self
  rw [List.cons_append] at hskip
  rw [afterWord, wordLine, List.cons_append, dropWhile_replicate _ hc, hskip]
  rfl

theorem labelledParts_append {id : List Char} (hid : '[' ∉ id) (label : List Char) :
    labelledParts (id ++ '[' :: '"' :: (label ++ ['"', ']'])) = (id, label) := by
  have hall : ∀ c ∈ id, (c != '[') = true := by
    intro c hc
    rw [bne_iff_ne]
    rintro rfl
    exact hid hc
  rw [labelledParts, List.takeWhile_append_of_pos hall, List.dropWhile_append_of_pos hall]
  simp

theorem dropWhile_nodeLine (depth : Nat) {id : List Char} (hid : IsNodeId id) (label : List Char) :
    (nodeLine depth id label).dropWhile (· == ' ') = id ++ '[' :: '"' :: (label ++ ['"', ']']) := by
  obtain ⟨c, id, rfl⟩ := List.exists_cons_of_ne_nil hid.ne_nil
  have hc : c ≠ ' ' := by
    rintro rfl
    exact hid.blank_not_mem List.mem_cons_self
  rw [nodeLine, List.cons_append, dropWhile_replicate _ hc]

/-! ## What lines state -/

/-- The class that the first of some lines gives to the node in front of it. -/
def className? : List (List Char) → Option String
  | [] => none
  | line :: _ =>
    if isClassLine line then some (String.ofList (afterWord (afterWord line))) else none

/-- The events that lines state. -/
def eventsOf : List (List Char) → List Event
  | [] => []
  | line :: rest =>
    if isGroupLine line then
      let (id, title) := labelledParts (afterWord line)
      .opened (String.ofList id) (String.ofList title) :: eventsOf rest
    else if isEndLine line then .closed :: eventsOf rest
    else if isNodeLine line then
      let (id, label) := labelledParts (line.dropWhile (· == ' '))
      -- A class belongs to the node that it stands behind.
      .declared (String.ofList id) (String.ofList label) (className? rest) :: eventsOf rest
    else eventsOf rest

/-- A line that belongs to a body. -/
def isBodyLine (line : List Char) : Bool :=
  isGroupLine line || isEndLine line || isNodeLine line || isClassLine line

/-- The lines that connect nodes, which are those that begin with no word of their own. -/
def edgeLinesOf (lines : List (List Char)) : List (List Char) :=
  lines.filter fun line => !(isBodyLine line || isStyleLine line || line.isEmpty)

/-- The class names that lines define. -/
def stylesOf (lines : List (List Char)) : List String :=
  (lines.filter isStyleLine).map fun line => String.ofList (firstWord (afterWord line))

/-- The identifiers on the lines of nodes. -/
def nodeIdsOf (lines : List (List Char)) : List String :=
  (lines.filter isNodeLine).map fun line =>
    String.ofList (labelledParts (line.dropWhile (· == ' '))).1

/-- Lines of nodes are what declares them, as no other line has a bracket in its first word. -/
theorem nodeIdsOf_eq_filterMap (lines : List (List Char)) :
    nodeIdsOf lines = (eventsOf lines).filterMap declaredId? := by
  have hcons (line : List Char) (rest : List (List Char)) : nodeIdsOf (line :: rest) =
      if isNodeLine line then
        String.ofList (labelledParts (line.dropWhile (· == ' '))).1 :: nodeIdsOf rest
      else nodeIdsOf rest := by
    unfold nodeIdsOf
    split
    · next hnode => rw [List.filter_cons_of_pos hnode, List.map_cons]
    · next hnode => rw [List.filter_cons_of_neg hnode]
  induction lines with
  | nil => rfl
  | cons line lines ih =>
    rw [hcons, eventsOf, ih]
    split
    · next hnode =>
      have hword {word : List Char} (hbracket : '[' ∉ word) : firstWord line ≠ word := by
        intro hword
        rw [isNodeLine_eq_false hword hbracket] at hnode
        cases hnode
      have hgroup : isGroupLine line = false := beq_eq_false_iff_ne.mpr (hword (by decide))
      have hend : isEndLine line = false := beq_eq_false_iff_ne.mpr (hword (by decide))
      simp [hgroup, hend, declaredId?]
    · split
      · rfl
      · split <;> rfl

/-- Lines that belong to no body state no events and no class. -/
theorem eventsOf_of_forall {lines : List (List Char)}
    (h : ∀ line ∈ lines, isBodyLine line = false) :
    eventsOf lines = [] ∧ className? lines = none := by
  induction lines with
  | nil => exact ⟨rfl, rfl⟩
  | cons line lines ih =>
    rw [List.forall_mem_cons] at h
    obtain ⟨hline, hrest⟩ := h
    simp only [isBodyLine, Bool.or_eq_false_iff] at hline
    obtain ⟨⟨⟨hgroup, hend⟩, hnode⟩, hclass⟩ := hline
    simp [eventsOf, className?, hgroup, hend, hnode, hclass, (ih hrest).1]

theorem isOther_of_isBodyLine {line : List Char} (h : isBodyLine line = false) :
    isNodeLine line = false ∧ isClassLine line = false := by
  simp only [isBodyLine, Bool.or_eq_false_iff] at h
  exact ⟨h.1.2, h.2⟩

theorem isBodyLine_header (kind : Kind) : isBodyLine (kind.name ++ " TD").toList = false := by
  cases kind <;> decide

/-! ## The lines of a body -/

section Body

variable {events : List Event} {groups : List String} {back : List (List Char)}

theorem isGroupLine_wordLine (depth : Nat) (rest : List Char) :
    isGroupLine (wordLine depth "subgraph".toList rest) = true := by
  rw [isGroupLine, firstWord_wordLine _ (by decide) (by decide), beq_self_eq_true]

theorem isEndLine_endLine (depth : Nat) : isEndLine (indent depth ++ "end").toList = true := by
  rw [isEndLine, firstWord_toList_endLine, beq_self_eq_true]

theorem isClassLine_nodeLine (depth : Nat) {id : List Char} (hid : IsNodeId id)
    (label : List Char) : isClassLine (nodeLine depth id label) = false :=
  beq_eq_false_iff_ne.mpr (firstWord_nodeLine_ne depth hid label (by decide))

/-- The lines of sound events all belong to a body. -/
theorem isBodyLine_bodyLines (hevents : ∀ e ∈ events, e.IsSound classNames) (depth : Nat)
    (groups : List String) :
    ∀ line ∈ (bodyLines depth groups events).map String.toList, isBodyLine line = true := by
  induction events generalizing depth groups with
  | nil => simp [bodyLines]
  | cons e events ih =>
    obtain ⟨he, hrest⟩ := List.forall_mem_cons.mp hevents
    cases e with
    | opened id title =>
      rw [bodyLines, List.map_cons, toList_groupLine, List.forall_mem_cons]
      refine ⟨?_, ih hrest _ _⟩
      rw [isBodyLine, isGroupLine_wordLine]
      rfl
    | closed =>
      rw [bodyLines, List.map_cons, List.forall_mem_cons]
      refine ⟨?_, ih hrest _ _⟩
      rw [isBodyLine, isEndLine_endLine, Bool.or_true]
      rfl
    | declared id label style =>
      have hnode := isNodeLine_nodeLine depth he.1 label.toList
      rw [bodyLines, List.map_append, List.map_cons, toList_nodeLine, List.cons_append,
        List.forall_mem_cons, List.forall_mem_append]
      refine ⟨by simp [isBodyLine, hnode], ?_, ih hrest _ _⟩
      simp only [List.forall_mem_map, toList_classLine]
      exact fun name _ => by simp [isBodyLine, isClassLine_classLine]

/-- No class stands in front of the lines of sound events. -/
theorem className?_bodyLines (hevents : ∀ e ∈ events, e.IsSound classNames)
    (hback : ∀ line ∈ back, isBodyLine line = false) (depth : Nat) (groups : List String) :
    className? ((bodyLines depth groups events).map String.toList ++ back) = none := by
  cases events with
  | nil => exact (eventsOf_of_forall hback).2
  | cons e events =>
    have he := hevents e List.mem_cons_self
    cases e with
    | opened id title =>
      rw [bodyLines, List.map_cons, toList_groupLine, List.cons_append, className?,
        isClassLine, firstWord_wordLine _ (by decide) (by decide)]
      rfl
    | closed =>
      rw [bodyLines, List.map_cons, List.cons_append, className?, isClassLine,
        firstWord_toList_endLine]
      rfl
    | declared id label style =>
      rw [bodyLines, List.map_append, List.map_cons, toList_nodeLine, List.cons_append,
        List.cons_append, className?, isClassLine_nodeLine depth he.1]
      rfl

/-- The events are read back from their lines, whatever follows that belongs to no body. -/
theorem eventsOf_bodyLines (hevents : ∀ e ∈ events, e.IsSound classNames)
    (hgroups : ∀ id ∈ groups, '[' ∉ id.toList)
    (hback : ∀ line ∈ back, isBodyLine line = false) (depth : Nat) :
    eventsOf ((bodyLines depth groups events).map String.toList ++ back) =
      named groups events := by
  induction events generalizing depth groups with
  | nil => exact (eventsOf_of_forall hback).1
  | cons e events ih =>
    obtain ⟨he, hrest⟩ := List.forall_mem_cons.mp hevents
    cases e with
    | opened id title =>
      have hid : '[' ∉ (groups.head?.getD id).toList := by
        cases groups with
        | nil => exact he.1.bracket_not_mem
        | cons group groups => exact hgroups group List.mem_cons_self
      have htail := fun id hmem => hgroups id (List.mem_of_mem_tail hmem)
      rw [bodyLines, List.map_cons, toList_groupLine, List.cons_append, eventsOf,
        if_pos (isGroupLine_wordLine _ _), afterWord_wordLine _ (by decide) (by decide),
        labelledParts_append hid, ih hrest htail]
      simp only [String.ofList_toList]
      rfl
    | closed =>
      have hend := isEndLine_endLine (max 1 (depth - 1))
      rw [bodyLines, List.map_cons, List.cons_append, eventsOf,
        if_neg (ne_true_of_eq_false (IsBody.isGroupLine_of_isEndLine hend)), if_pos hend,
        ih hrest hgroups]
      rfl
    | declared id label style =>
      have hread (name? : Option String) (lines : List (List Char))
          (hclass : className? lines = name?) :
          eventsOf (nodeLine depth id.toList label.toList :: lines) =
            .declared id label name? :: eventsOf lines := by
        rw [eventsOf, if_neg (by simp [IsBody.isGroupLine_nodeLine depth he.1]),
          if_neg (by simp [IsBody.isEndLine_nodeLine depth he.1]),
          if_pos (isNodeLine_nodeLine depth he.1 _), dropWhile_nodeLine depth he.1,
          labelledParts_append he.1.bracket_not_mem, hclass]
        simp only [String.ofList_toList]
      rw [bodyLines, List.map_append, List.map_cons, toList_nodeLine, List.cons_append]
      cases style with
      | none =>
        rw [Option.toList_none, List.map_nil, List.map_nil, List.nil_append, List.cons_append,
          hread none _ (className?_bodyLines hrest hback depth groups), ih hrest hgroups]
        rfl
      | some name =>
        -- The class stands on the line behind the node, and states no event itself.
        have hword := firstWord_of_isClassLine (isClassLine_classLine depth id.toList name.toList)
        have hclass : afterWord (afterWord (classLine depth id.toList name.toList)) =
            name.toList := by
          rw [classLine, afterWord_wordLine _ (by decide) (by decide)]
          exact afterWord_wordLine 0 he.1.ne_nil he.1.blank_not_mem name.toList
        have hskip (lines : List (List Char)) :
            eventsOf (classLine depth id.toList name.toList :: lines) = eventsOf lines := by
          rw [eventsOf, if_neg (by simp [IsBody.isGroupLine_classLine]),
            if_neg (by simp [IsBody.isEndLine_classLine]),
            if_neg (by simp [isNodeLine_eq_false hword (by decide)])]
        rw [Option.toList_some, List.map_singleton, List.map_singleton, toList_classLine,
          List.singleton_append, List.cons_append, List.cons_append, hread (some name), hskip,
          ih hrest hgroups]
        · rfl
        · rw [className?, if_pos (isClassLine_classLine _ _ _), hclass, String.ofList_toList]

end Body

/-! ## The lines behind a body -/

theorem isStyleLine_styleLine (style : Style) : isStyleLine (styleLine style).toList = true := by
  rw [isStyleLine, toList_styleLine, firstWord_wordLine _ (by decide) (by decide),
    beq_self_eq_true]

/-- An edge begins with an identifier, which is none of the words that begin other lines. -/
theorem isOther_edgeLine {e : Edge} (h : e.IsSound) :
    isBodyLine e.line.toList = false ∧ isStyleLine e.line.toList = false ∧
      e.line.toList ≠ [] := by
  have hword := firstWord_edgeLine h
  have hne {word : List Char} (hreserved : Identifier.isReserved word = true) :
      (firstWord e.line.toList == word) = false := by
    rw [hword]
    exact beq_eq_false_iff_ne.mpr (h.source.ne_of_isReserved hreserved)
  refine ⟨?_, hne (by decide), ?_⟩
  · rw [isBodyLine, isGroupLine, isEndLine, isClassLine, hne (by decide), hne (by decide),
      hne (by decide), isNodeLine_eq_false hword h.source.bracket_not_mem]
    rfl
  · intro hnil
    rw [hnil] at hword
    exact h.source.ne_nil hword.symm

theorem isBodyLine_of_isStyleLine {line : List Char} (h : isStyleLine line = true) :
    isBodyLine line = false := by
  have hword : firstWord line = "classDef".toList := beq_iff_eq.mp h
  rw [isBodyLine, isNodeLine_eq_false hword (by decide), isGroupLine, isEndLine, isClassLine,
    hword]
  decide

/-- The lines behind the empty line are those of the styles. -/
theorem mem_styleLines {d : Diagram} {line : String} (h : line ∈ d.styleLines) :
    line = "" ∨ ∃ style, line = styleLine style := by
  unfold styleLines at h
  split at h
  · cases h
  · rcases List.mem_cons.mp h with rfl | h
    · exact .inl rfl
    · obtain ⟨style, -, rfl⟩ := List.mem_map.mp h
      exact .inr ⟨style, rfl⟩

/-! ## Lines of the same text -/

/-- Final identifiers can be put into the events before the lines are made. -/
theorem bodyLines_named (depth : Nat) (groups : List String) (events : List Event) :
    bodyLines depth [] (named groups events) = bodyLines depth groups events := by
  induction events generalizing depth groups with
  | nil => rfl
  | cons e events ih =>
    cases e with
    | opened id title =>
      rw [named, bodyLines, bodyLines, List.tail_nil, ih]
      rfl
    | closed => rw [named, bodyLines, bodyLines, ih]
    | declared id label style => rw [named, bodyLines, bodyLines, ih]

theorem edges_eq_of_map_line_eq {edges edges' : List Edge} (h : ∀ e ∈ edges, e.IsSound)
    (h' : ∀ e ∈ edges', e.IsSound)
    (hlines : edges.map (fun e => e.line.toList) = edges'.map (fun e => e.line.toList)) :
    edges = edges' := by
  induction edges generalizing edges' with
  | nil => exact (List.map_eq_nil_iff.mp hlines.symm).symm
  | cons e edges ih =>
    cases edges' with
    | nil => cases hlines
    | cons f edges' =>
      rw [List.forall_mem_cons] at h h'
      rw [List.map_cons, List.map_cons, List.cons.injEq] at hlines
      rw [eq_of_toList_line_eq h.1 h'.1 hlines.1, ih h.2 h'.2 hlines.2]

/-- A style is told by its class name. -/
theorem name_injective : Function.Injective Style.name := by
  intro style style' h
  apply Option.some.inj
  rw [← Style.named?_name, h, Style.named?_name]

/-! ## The whole markup -/

namespace IsLegible

variable {palette palette' : List Style} {d d' : Diagram}

/-- The lines behind the header. -/
theorem tail_lines (d : Diagram) : d.lines.tail.map String.toList =
    (bodyLines 1 d.groupIds d.events).map String.toList ++
      (d.edges.map (fun e => e.line.toList) ++ d.styleLines.map String.toList) := by
  simp [lines, Function.comp_def]

/-- Behind the body no line belongs to one. -/
theorem isBodyLine_back (h : IsLegible palette d) :
    ∀ line ∈ d.edges.map (fun e => e.line.toList) ++ d.styleLines.map String.toList,
      isBodyLine line = false := by
  rw [List.forall_mem_append, List.forall_mem_map, List.forall_mem_map]
  refine ⟨fun e he => (isOther_edgeLine (h.edges e he)).1, fun line hline => ?_⟩
  rcases mem_styleLines hline with rfl | ⟨style, rfl⟩
  · rfl
  · exact isBodyLine_of_isStyleLine (isStyleLine_styleLine style)

theorem eventsOf_lines (h : IsLegible palette d) :
    eventsOf (d.lines.tail.map String.toList) = d.drawnEvents := by
  rw [tail_lines]
  refine eventsOf_bodyLines h.events (fun id hid => ?_) h.isBodyLine_back 1
  exact Text.not_mem_of_class (h.isAllowed_groupIds id hid) (by decide)

theorem isNodeLine_header (h : IsLegible palette d) :
    isNodeLine (d.kind.name ++ " " ++ d.direction).toList = false := by
  rw [h.direction_eq, String.append_assoc]
  exact (isOther_of_isBodyLine (isBodyLine_header d.kind)).1

/-- The lines of nodes have the identifiers of the diagram, in the order of drawing. -/
theorem nodeIdsOf_lines (h : IsLegible palette d) :
    nodeIdsOf (d.lines.map String.toList) = d.nodeIds := by
  have hheader : nodeIdsOf (d.lines.map String.toList) =
      nodeIdsOf (d.lines.tail.map String.toList) := by
    rw [nodeIdsOf, lines, List.cons_append, List.cons_append, List.map_cons,
      List.filter_cons_of_neg (ne_true_of_eq_false h.isNodeLine_header)]
    rfl
  rw [hheader, nodeIdsOf_eq_filterMap, h.eventsOf_lines, drawnEvents, filterMap_named]
  rfl

theorem edgeLinesOf_lines (h : IsLegible palette d) :
    edgeLinesOf (d.lines.tail.map String.toList) = d.edges.map fun e => e.line.toList := by
  have hbody := isBodyLine_bodyLines h.events 1 d.groupIds
  rw [tail_lines, edgeLinesOf, List.filter_append, List.filter_append,
    List.filter_eq_nil_iff.mpr, List.filter_eq_self.mpr, List.filter_eq_nil_iff.mpr]
  · simp
  -- Neither the empty line nor a style is an edge.
  · refine List.forall_mem_map.mpr fun line hline => ?_
    rcases mem_styleLines hline with rfl | ⟨style, rfl⟩
    · simp
    · simp [isStyleLine_styleLine]
  · refine List.forall_mem_map.mpr fun e he => ?_
    obtain ⟨hbody, hstyle, hne⟩ := isOther_edgeLine (h.edges e he)
    simp [hbody, hstyle, hne]
  · intro line hline
    simp [hbody line hline]

/-- The same lines of nodes are found in the markup, cut at its line feeds. -/
theorem nodeIdsOf_splitAtChar (h : IsLegible palette d) :
    nodeIdsOf (Text.splitAtChar '\n' d.markup.toList) = d.nodeIds := by
  rw [h.splitAtChar_markup, ← h.nodeIdsOf_lines, nodeIdsOf, nodeIdsOf, List.filter_append]
  exact congrArg (List.map _) (List.append_nil _)

theorem stylesOf_lines (h : IsLegible palette d) :
    stylesOf (d.lines.tail.map String.toList) = palette.map Style.name := by
  have hbody : ∀ line ∈ (bodyLines 1 d.groupIds d.events).map String.toList,
      ¬isStyleLine line = true := by
    intro line hline hstyle
    have hboth := isBodyLine_bodyLines h.events 1 d.groupIds line hline
    rw [isBodyLine_of_isStyleLine hstyle] at hboth
    cases hboth
  have hedges : ∀ line ∈ d.edges.map (fun e => e.line.toList), ¬isStyleLine line = true := by
    refine List.forall_mem_map.mpr fun e he => ?_
    simp [(isOther_edgeLine (h.edges e he)).2.1]
  have hname (style : Style) :
      String.ofList (firstWord (afterWord (styleLine style).toList)) = style.name := by
    have hplain : style.name.toList ≠ [] ∧ ' ' ∉ style.name.toList := by
      cases style <;> decide
    rw [toList_styleLine, afterWord_wordLine _ (by decide) (by decide)]
    rw [show style.name.toList ++ ' ' :: style.look.toList =
      wordLine 0 style.name.toList style.look.toList from rfl,
      firstWord_wordLine _ hplain.1 hplain.2, String.ofList_toList]
  have hstyles : (d.styleLines.map String.toList).filter isStyleLine =
      palette.map fun style => (styleLine style).toList := by
    have hall : ∀ line ∈ palette.map fun style => (styleLine style).toList,
        isStyleLine line = true :=
      List.forall_mem_map.mpr fun style _ => isStyleLine_styleLine style
    unfold styleLines
    rw [h.filterMap_named?]
    split
    -- Without styles the empty line is left out too.
    · next hempty =>
      rw [h.styles_eq, List.isEmpty_iff, List.map_eq_nil_iff] at hempty
      rw [hempty]
      rfl
    · rw [List.map_cons, List.filter_cons_of_neg (by decide), List.map_map]
      exact List.filter_eq_self.mpr hall
  rw [tail_lines, stylesOf, List.filter_append, List.filter_append,
    List.filter_eq_nil_iff.mpr hbody, List.filter_eq_nil_iff.mpr hedges, hstyles,
    List.nil_append, List.nil_append, List.map_map]
  exact List.map_congr_left fun style _ => hname style

/-- Diagrams with the same lines say the same. -/
theorem eq_of_lines_eq (h : IsLegible palette d) (h' : IsLegible palette' d')
    (hlines : d.lines.map String.toList = d'.lines.map String.toList) :
    d.kind = d'.kind ∧ d.drawnEvents = d'.drawnEvents ∧ d.edges = d'.edges ∧
      palette = palette' := by
  have htail : d.lines.tail.map String.toList = d'.lines.tail.map String.toList := by
    rw [List.map_tail, List.map_tail, hlines]
  refine ⟨?_, ?_, ?_, ?_⟩
  · have hheader := congrArg List.head? hlines
    simp only [lines, h.direction_eq, h'.direction_eq, List.cons_append, List.map_cons,
      List.head?_cons, Option.some.injEq] at hheader
    cases hkind : d.kind <;> cases hkind' : d'.kind <;> rw [hkind, hkind'] at hheader
    -- The two kinds are two different words.
    all_goals first | rfl | exact absurd hheader (by decide)
  · rw [← h.eventsOf_lines, ← h'.eventsOf_lines, htail]
  · apply edges_eq_of_map_line_eq h.edges h'.edges
    rw [← h.edgeLinesOf_lines, ← h'.edgeLinesOf_lines, htail]
  · apply (List.map_inj_right @name_injective).mp
    rw [← h.stylesOf_lines, ← h'.stylesOf_lines, htail]

/-- Diagrams have the same lines if and only if they say the same. -/
theorem lines_eq_iff (h : IsLegible palette d) (h' : IsLegible palette' d') :
    d.lines = d'.lines ↔ d.kind = d'.kind ∧ d.drawnEvents = d'.drawnEvents ∧
      d.edges = d'.edges ∧ palette = palette' := by
  constructor
  · intro hlines
    exact h.eq_of_lines_eq h' (congrArg (List.map String.toList) hlines)
  · rintro ⟨hkind, hevents, hedges, rfl⟩
    rw [lines, lines, styleLines, styleLines, h.styles_eq, h'.styles_eq, h.direction_eq,
      h'.direction_eq, hkind, hedges, ← bodyLines_named 1 d.groupIds,
      ← bodyLines_named 1 d'.groupIds]
    exact congrArg (fun events => _ :: bodyLines 1 [] events ++ _ ++ _) hevents

end IsLegible

/-- Two diagrams that are drawn step by step, in any order and from any texts, have the same markup
if and only if they say the same: they are of one kind, their groups open and close around the
same nodes, they connect the same nodes in the same way, and they define the same styles. -/
theorem render_ofSteps_eq_iff (kind kind' : Kind) (palette palette' : List Style)
    (steps steps' : List Step) :
    (ofSteps kind palette steps).render = (ofSteps kind' palette' steps').render ↔
      kind = kind' ∧
      (ofSteps kind palette steps).drawnEvents = (ofSteps kind' palette' steps').drawnEvents ∧
      (ofSteps kind palette steps).edges = (ofSteps kind' palette' steps').edges ∧
      palette = palette' := by
  have h := isLegible_ofSteps kind palette steps
  have h' := isLegible_ofSteps kind' palette' steps'
  have hmarkup : (ofSteps kind palette steps).render = (ofSteps kind' palette' steps').render ↔
      (ofSteps kind palette steps).lines = (ofSteps kind' palette' steps').lines := by
    rw [h.render_eq_ok, h'.render_eq_ok, Except.ok.injEq]
    constructor
    · intro hmarkup
      -- No line holds a line feed, so the markup is cut into its lines again.
      have hsplit := congrArg (fun text => Text.splitAtChar '\n' text.toList) hmarkup
      rw [h.splitAtChar_markup, h'.splitAtChar_markup, List.append_left_inj] at hsplit
      exact (List.map_inj_right fun _ _ => String.toList_inj.mp).mp hsplit
    · intro hlines
      rw [markup, hlines]
      rfl
  rw [hmarkup, h.lines_eq_iff h', kind_ofSteps, kind_ofSteps]

/-- A group makes way for a node of its name. -/
example : (ofSteps .graph [] [.openGroup "db" "Data", .node "db" ["x"] none,
    .closeGroup]).drawnEvents =
    [.opened "db_group" "Data", .declared "db" "x" none, .closed] := by decide +kernel

end Schematic.Diagram
