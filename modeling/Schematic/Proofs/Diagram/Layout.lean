import Schematic.Proofs.Diagram.Reading

/-!
# Layout of a markup

The markup of a sound diagram consists of a header, a body with its groups and nodes, the edges,
an empty line and the styles. The events of the diagram are drawn as a body, one after the other,
and nothing that is drawn has a line end in it, so the lines of the markup are those drawn.

## Main definitions

- `Layout`, `IsLaidOut` — the parts of a markup and what is said about them

## Main statements

- `isBody_bodyLines` — sound events are drawn as a body
- `IsSound.exists_layout` — the markup of a sound diagram is laid out in this way
-/

namespace Schematic.Diagram

/-! ## From events to lines -/

/-- The depth of what stands in a group or in none. -/
def bodyDepth (inGroup : Bool) : Nat :=
  if inGroup then 2 else 1

/-- Sound events from some point on, up to one where no group is open, are drawn as a body. -/
theorem isBody_bodyLines {styles : List String} {inGroup : Bool} {events : List Event}
    (hevents : ∀ e ∈ events, e.IsSound styles)
    (hgroups : events.foldlM Event.step inGroup = some false) (groups : List String) :
    IsBody styles inGroup ((bodyLines (bodyDepth inGroup) groups events).map String.toList) := by
  induction events generalizing inGroup groups with
  | nil =>
    obtain rfl : inGroup = false := Option.some.inj hgroups
    exact .nil
  | cons e events ih =>
    have he := hevents e List.mem_cons_self
    have hrest := fun e' he' => hevents e' (List.mem_cons_of_mem _ he')
    rw [List.foldlM_cons] at hgroups
    cases e with
    | opened id title =>
      cases inGroup with
      | true => cases hgroups
      | false =>
        -- The group may stand under another identifier than it asked for: its word is what counts.
        rw [bodyLines, List.map_cons, toList_groupLine]
        refine .opened ?_ (ih hrest hgroups groups.tail)
        rw [isGroupLine, firstWord_wordLine _ (by decide) (by decide), beq_self_eq_true]
    | closed =>
      cases inGroup with
      | true =>
        rw [bodyLines, List.map_cons]
        exact .closed (by decide) (ih hrest hgroups groups)
      | false => cases hgroups
    | declared id label style =>
      obtain ⟨hid, hlabel, hstyle⟩ := he
      -- With a style there are two lines, and the class names the node of the line before it.
      rw [bodyLines, List.map_append, List.map_cons, toList_nodeLine]
      cases style with
      | none => exact .node hid hlabel (ih hrest hgroups groups)
      | some name =>
        simp only [Option.toList_some, List.map_cons, List.map_nil, toList_classLine]
        exact .styled hid hlabel (hstyle name rfl) (ih hrest hgroups groups)

/-! ## The parts of a markup -/

/-- The lines of a markup by what they are for. -/
structure Layout where
  body : List (List Char)
  edges : List (List Char)
  styles : List (List Char)

/-- All lines: a header in front of the body, and an empty line between edges and styles. -/
def Layout.lines (layout : Layout) (kind : Kind) : List (List Char) :=
  (kind.name ++ " TD").toList :: (layout.body ++ (layout.edges ++ [] :: layout.styles))

/-- A line that connects two nodes. -/
def HasEdgeForm (line : List Char) : Prop :=
  ∃ source target label dotted, line = edgeLine source target label dotted ∧
    IsNodeId source ∧ IsNodeId target ∧ ∀ text ∈ label, IsLabel text

/-- What the lines of a markup say about the diagram, and how they stand to each other. -/
structure IsLaidOut (d : Diagram) (layout : Layout) : Prop where
  isBodyLine : ∀ line ∈ layout.body, isGroupLine line = true ∨ isNodeLine line = true ∨
    isClassLine line = true ∨ isEndLine line = true
  /-- Every group is closed. -/
  isBalanced : layout.body.countP isEndLine = layout.body.countP isGroupLine
  /-- Up to every line at most one group is open. -/
  isFlat : ∀ front, front <+: layout.body → front.countP isEndLine ≤ front.countP isGroupLine ∧
    front.countP isGroupLine ≤ front.countP isEndLine + 1
  length_edges : layout.edges.length = d.edgeCount
  nodup_edges : layout.edges.Nodup
  hasEdgeForm : ∀ line ∈ layout.edges, HasEdgeForm line
  isStyleLine : ∀ line ∈ layout.styles, isStyleLine line = true
  countP_isNodeLine : (layout.lines d.kind).countP isNodeLine = d.nodeCount
  hasNodeForm : ∀ line ∈ layout.lines d.kind, isNodeLine line = true → HasNodeForm line
  classesFollow : ClassesFollow d.styles (layout.lines d.kind)
  /-- Every class that a node may have is defined. -/
  isDefined : ∀ name ∈ d.styles, ∃ look,
    wordLine 1 "classDef".toList (name.toList ++ ' ' :: look) ∈ layout.styles

/-- The parts as they are drawn. -/
def layout (d : Diagram) : Layout where
  body := (bodyLines 1 d.groupIds d.events).map String.toList
  edges := d.edges.map fun e => e.line.toList
  styles := (d.styles.filterMap Style.named?).map fun style => (styleLine style).toList

/-! ## The markup of a sound diagram -/

namespace IsSound

variable {palette : List Style} {inGroup : Bool} {d : Diagram}

/-- Sound diagrams are legible: the styles of a palette are styles. -/
theorem isLegible (h : IsSound palette inGroup d) : IsLegible palette d where
  direction_eq := h.direction_eq
  styles_eq := h.styles_eq
  events := by
    intro e he
    have hsound := h.events e he
    rw [h.styles_eq] at hsound
    cases e with
    | declared id label style =>
      obtain ⟨hid, hlabel, hstyle⟩ := hsound
      refine ⟨hid, hlabel, fun name hname => ?_⟩
      obtain ⟨s, -, rfl⟩ := List.mem_map.mp (hstyle name hname)
      exact name_mem_classNames s
    | _ => exact hsound
  edges := h.edges

/-- No style is missing. -/
theorem render_eq_ok (h : IsSound palette inGroup d) : d.render = .ok d.markup :=
  h.isLegible.render_eq_ok

theorem map_styleLines (h : IsSound palette inGroup d) (hpalette : palette ≠ []) :
    d.styleLines.map String.toList = [] :: d.layout.styles := by
  rw [styleLines, if_neg]
  · simp [layout]
  · rw [h.styles_eq, List.isEmpty_iff, List.map_eq_nil_iff]
    exact hpalette

theorem map_lines (h : IsSound palette inGroup d) (hpalette : palette ≠ []) :
    d.lines.map String.toList = d.layout.lines d.kind := by
  rw [lines, h.direction_eq, List.map_append, h.map_styleLines hpalette]
  simp [Layout.lines, layout, Function.comp_def]

/-- The lines of the markup are those of its parts. -/
theorem splitAtChar_markup (h : IsSound palette inGroup d) (hpalette : palette ≠ []) :
    Text.splitAtChar '\n' d.markup.toList = d.layout.lines d.kind ++ [[]] := by
  rw [h.isLegible.splitAtChar_markup, h.map_lines hpalette]

/-- Behind the body there are neither nodes nor classes. -/
theorem isBodyLine_of_mem (h : IsSound palette inGroup d) (hpalette : palette ≠ []) :
    ∀ line ∈ d.layout.edges ++ [] :: d.layout.styles, isBodyLine line = false := by
  rw [← h.map_styleLines hpalette]
  exact h.isLegible.isBodyLine_back

theorem nodup_edges (h : IsSound palette inGroup d) : d.layout.edges.Nodup := by
  refine List.pairwise_map.mpr (h.nodup.imp_of_mem ?_)
  intro e f he hf hne heq
  exact hne (eq_of_toList_line_eq (h.edges e he) (h.edges f hf) heq)

theorem isDefined (h : IsSound palette inGroup d) : ∀ name ∈ d.styles, ∃ look,
    wordLine 1 "classDef".toList (name.toList ++ ' ' :: look) ∈ d.layout.styles := by
  intro name hname
  rw [h.styles_eq] at hname
  obtain ⟨style, hstyle, rfl⟩ := List.mem_map.mp hname
  refine ⟨style.look.toList, List.mem_map.mpr ⟨style, ?_, toList_styleLine style⟩⟩
  rw [h.isLegible.filterMap_named?]
  exact hstyle

/-- The parts of a sound diagram stand to each other as they should. -/
theorem isLaidOut (h : IsSound palette false d) (hpalette : palette ≠ []) :
    IsLaidOut d d.layout := by
  have hbody : IsBody d.styles false d.layout.body :=
    isBody_bodyLines h.events h.inGroup?_eq d.groupIds
  have hback := h.isBodyLine_of_mem hpalette
  refine ⟨hbody.isBodyLine, hbody.countP_isEndLine, hbody.countP_front, List.length_map _,
    h.nodup_edges, ?_, ?_, ?_, ?_, ?_, h.isDefined⟩
  · refine List.forall_mem_map.mpr fun e he => ?_
    have he := h.edges e he
    refine ⟨_, _, _, _, toList_edgeLine e, he.source, he.target, ?_⟩
    intro text htext
    obtain ⟨label, hlabel, rfl⟩ := Option.map_eq_some_iff.mp htext
    exact he.label label hlabel
  · exact List.forall_mem_map.mpr fun style _ => isStyleLine_styleLine style
  · rw [← h.map_lines hpalette, List.countP_eq_length_filter, nodeCount,
      ← h.isLegible.nodeIdsOf_lines, nodeIdsOf, List.length_map]
  -- Nodes stand in the body only, and so do classes.
  · intro line hline hnode
    rcases List.mem_cons.mp hline with rfl | hline
    · rw [(isOther_of_isBodyLine (isBodyLine_header _)).1] at hnode
      cases hnode
    · rcases List.mem_append.mp hline with hline | hline
      · exact hbody.hasNodeForm line hline hnode
      · rw [(isOther_of_isBodyLine (hback line hline)).1] at hnode
        cases hnode
  -- A line that is no class does not come between a class and its node.
  · apply (hbody.classesFollow.append fun line hline => ?_).cons
    · exact (isOther_of_isBodyLine (isBodyLine_header _)).2
    · exact (isOther_of_isBodyLine (hback line hline)).2

/-- The markup of a sound diagram consists of such parts. -/
theorem exists_layout (h : IsSound palette false d) (hpalette : palette ≠ []) :
    ∃ layout, Text.splitAtChar '\n' d.markup.toList = layout.lines d.kind ++ [[]] ∧
      IsLaidOut d layout :=
  ⟨d.layout, h.splitAtChar_markup hpalette, h.isLaidOut hpalette⟩

end IsSound

end Schematic.Diagram
