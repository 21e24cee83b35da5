import Schematic.Proofs.Diagram.Fresh

/-!
# Edges between other calls

The calls that draw a diagram are of two sorts: those that open and close groups and declare nodes
write its body, and those that connect nodes collect its edges. What a group is called in the end
depends on both, as no group takes the identifier of a node that an edge names, wherever the edge is
drawn. The name is found when the diagram is written, though, so it does not matter how the two
sorts of calls are mixed, but only in which order the calls of each sort come.

## Main definitions

- `Call.event?` — the event that a call adds to the body
- `Call.isEdge` — whether a call connects nodes
- `SameOutput` — diagrams that are written and counted alike

## Main statements

- `call_edge_of_mem` — an edge that is there already changes nothing
- `events_ofCalls`, `edges_ofCalls`, `ofCalls_eq` — what is drawn by many calls
- `ofCalls_congr` — calls that differ in how they are mixed draw the same diagram
- `sameOutput_interleaved` — they give the same output, and so does an edge that is drawn again
-/

namespace Schematic.Diagram

/-! ## One call -/

namespace Call

/-- The event that a call adds to the body. -/
def event? : Call → Option Event
  | openGroup name title => some (.opened (identifier name) (Schematic.label title))
  | closeGroup => some .closed
  | node name label style =>
    some (.declared (identifier name) (Schematic.label (Text.join "\n" label))
      (style.filter (· != "")))
  | edge _ => none

/-- Whether a call connects nodes. -/
def isEdge (c : Call) : Bool :=
  c.link?.isSome

/-- A call adds an event to the body, or it connects nodes. -/
theorem isEdge_eq_false_of_event? {c : Call} {e : Event} (h : c.event? = some e) :
    c.isEdge = false := by
  cases c with
  | edge link => cases h
  | openGroup name title => rfl
  | closeGroup => rfl
  | node name label style => rfl

end Call

section Call

variable (d : Diagram) (c : Call)

theorem events_call : (d.call c).events = d.events ++ c.event?.toList := by
  cases c with
  | edge link => simp [call, Call.event?]
  | openGroup name title => rfl
  | closeGroup => rfl
  | node name label style => rfl

/-- Calls change nothing but the events and the edges. -/
theorem frame_call : (d.call c).kind = d.kind ∧ (d.call c).styles = d.styles ∧
    (d.call c).direction = d.direction := by
  cases c with
  | edge link =>
    unfold call edge
    simp only
    split <;> exact ⟨rfl, rfl, rfl⟩
  | openGroup name title => exact ⟨rfl, rfl, rfl⟩
  | closeGroup => exact ⟨rfl, rfl, rfl⟩
  | node name label style => exact ⟨rfl, rfl, rfl⟩

end Call

/-- An edge that is there already changes nothing. -/
theorem call_edge_of_mem {d : Diagram} {link : Link} (h : link.drawn ∈ d.edges) :
    d.call (.edge link) = d :=
  if_pos h

/-! ## Many calls -/

variable (kind : Kind) (styles : List String) (direction : String)

theorem ofCalls_append (front back : List Call) : ofCalls kind styles direction (front ++ back) =
    back.foldl call (ofCalls kind styles direction front) :=
  List.foldl_append

theorem frame_ofCalls (calls : List Call) : (ofCalls kind styles direction calls).kind = kind ∧
    (ofCalls kind styles direction calls).styles = styles ∧
    (ofCalls kind styles direction calls).direction = direction := by
  induction calls using List.reverseRecOn with
  | nil => exact ⟨rfl, rfl, rfl⟩
  | append_singleton calls c ih =>
    rw [ofCalls_append_singleton]
    obtain ⟨hkind, hstyles, hdirection⟩ := frame_call (ofCalls kind styles direction calls) c
    exact ⟨hkind.trans ih.1, hstyles.trans ih.2.1, hdirection.trans ih.2.2⟩

/-- The body is written by the calls that add events, in their order. -/
theorem events_ofCalls (calls : List Call) :
    (ofCalls kind styles direction calls).events = calls.filterMap Call.event? := by
  induction calls using List.reverseRecOn with
  | nil => rfl
  | append_singleton calls c ih =>
    rw [ofCalls_append_singleton, events_call, ih, List.filterMap_append]
    cases hevent : c.event? <;> simp [hevent]

/-- The edges are those of the calls that connect nodes, the first one of each. -/
theorem edges_ofCalls (calls : List Call) : (ofCalls kind styles direction calls).edges =
    ((calls.filterMap Call.link?).map Link.drawn).eraseDups := by
  have hlinks (d : Diagram) :
      (calls.foldl call d).edges = (d.links (calls.filterMap Call.link?)).edges := by
    induction calls generalizing d with
    | nil => rfl
    | cons c calls ih =>
      rw [List.foldl_cons, ih]
      cases c with
      | edge link => rfl
      -- What is drawn for links depends on the edges that are there, and on nothing else.
      | _ => exact (edges_links _ _).trans (edges_links d _).symm
  rw [ofCalls, hlinks, edges_links_of_edges_eq_nil _ rfl]

/-- What calls draw is told by the two lists of them. -/
theorem ofCalls_eq (calls : List Call) : ofCalls kind styles direction calls =
    { kind := kind, styles := styles, direction := direction
      events := calls.filterMap Call.event?
      edges := ((calls.filterMap Call.link?).map Link.drawn).eraseDups } := by
  obtain ⟨hkind, hstyles, hdirection⟩ := frame_ofCalls kind styles direction calls
  rw [← edges_ofCalls kind styles direction, ← events_ofCalls kind styles direction]
  generalize ofCalls kind styles direction calls = d at *
  subst hkind hstyles hdirection
  rfl

/-- Events are added by the calls that connect no nodes. -/
theorem filterMap_event?_filter (calls : List Call) :
    (calls.filter (!·.isEdge)).filterMap Call.event? = calls.filterMap Call.event? := by
  rw [List.filterMap_filter]
  refine List.filterMap_congr fun c _ => ?_
  cases hevent : c.event? with
  | none => simp
  | some e => simp [Call.isEdge_eq_false_of_event? hevent]

/-- Edges are added by those that do. -/
theorem filterMap_link?_filter (calls : List Call) :
    (calls.filter Call.isEdge).filterMap Call.link? = calls.filterMap Call.link? := by
  rw [List.filterMap_filter]
  refine List.filterMap_congr fun c _ => ?_
  cases hlink : c.link? <;> simp [Call.isEdge, hlink]

/-- Calls that differ in how edges are mixed with the rest draw the same diagram. -/
theorem ofCalls_congr {calls calls' : List Call}
    (hbody : calls.filter (!·.isEdge) = calls'.filter (!·.isEdge))
    (hedges : calls.filter Call.isEdge = calls'.filter Call.isEdge) :
    ofCalls kind styles direction calls = ofCalls kind styles direction calls' := by
  rw [ofCalls_eq, ofCalls_eq, ← filterMap_event?_filter calls, hbody, filterMap_event?_filter,
    ← filterMap_link?_filter calls, hedges, filterMap_link?_filter]

/-! ## The output -/

/-- Diagrams with the same markup and the same numbers of nodes and edges. -/
structure SameOutput (d d' : Diagram) : Prop where
  render_eq : d.render = d'.render
  nodeCount_eq : d.nodeCount = d'.nodeCount
  edgeCount_eq : d.edgeCount = d'.edgeCount

theorem SameOutput.of_eq {d d' : Diagram} (h : d = d') : SameOutput d d' :=
  h ▸ ⟨rfl, rfl, rfl⟩

/-- An edge with the line of an earlier one changes nothing, wherever it is drawn. -/
theorem ofCalls_repeated {front : List Call} {link other : Link} (hother : .edge other ∈ front)
    (hline : link.drawn.line = other.drawn.line) (back : List Call) :
    ofCalls kind styles direction (front ++ .edge link :: back) =
      ofCalls kind styles direction (front ++ back) := by
  -- The line of an edge tells the edge, so it is one of those that the first calls collect.
  have hdrawn : link.drawn = other.drawn :=
    eq_of_toList_line_eq link.isSound_drawn other.isSound_drawn (congrArg String.toList hline)
  have hmem : link.drawn ∈ (ofCalls kind styles direction front).edges := by
    rw [mem_edges_ofCalls]
    exact ⟨other, List.mem_filterMap.mpr ⟨_, hother, rfl⟩, hdrawn⟩
  rw [ofCalls_append, ofCalls_append, List.foldl_cons, call_edge_of_mem hmem]

/-- It does not matter where among the calls for groups and nodes those for edges come, as long as
each of the two sorts keeps its order: the markup is the same, with the same groups renamed, and so
are the counts. Nor does it matter if an edge is drawn again whose line is there already. -/
theorem sameOutput_interleaved {calls calls' : List Call}
    (hbody : calls.filter (!·.isEdge) = calls'.filter (!·.isEdge))
    (hedges : calls.filter Call.isEdge = calls'.filter Call.isEdge) :
    SameOutput (ofCalls kind styles direction calls) (ofCalls kind styles direction calls') ∧
    ∀ front back link other, calls = front ++ back → .edge other ∈ front →
      link.drawn.line = other.drawn.line →
        SameOutput (ofCalls kind styles direction (front ++ .edge link :: back))
          (ofCalls kind styles direction calls) := by
  refine ⟨.of_eq (ofCalls_congr kind styles direction hbody hedges), ?_⟩
  rintro front back link other rfl hother hline
  exact .of_eq (ofCalls_repeated kind styles direction hother hline back)

/-- A group of the name that an edge gives to a node, with the edge drawn before all else. -/
def edgeFirst : List Call :=
  [.edge { source := "web", target := "db" }, .openGroup "db" "Data", .node "web" ["Web"] none,
    .closeGroup]

/-- The same with the edge drawn within the group. -/
def edgeWithin : List Call :=
  [.openGroup "db" "Data", .node "web" ["Web"] none, .edge { source := "web", target := "db" },
    .closeGroup]

theorem sameOutput_interleaved_edgeWithin :
    edgeFirst.filter (!·.isEdge) = edgeWithin.filter (!·.isEdge) ∧
    edgeFirst.filter Call.isEdge = edgeWithin.filter Call.isEdge ∧
    SameOutput (ofCalls .flowchart [] "TD" edgeFirst) (ofCalls .flowchart [] "TD" edgeWithin) ∧
    SameOutput
      (ofCalls .flowchart [] "TD" (edgeFirst ++ [.edge { source := "web.", target := "db" }]))
      (ofCalls .flowchart [] "TD" edgeFirst) ∧
    (ofCalls .flowchart [] "TD" edgeWithin).groupIds = ["db_group"] := by
  have hbody : edgeFirst.filter (!·.isEdge) = edgeWithin.filter (!·.isEdge) := rfl
  have hedges : edgeFirst.filter Call.isEdge = edgeWithin.filter Call.isEdge := rfl
  obtain ⟨hmixed, hrepeated⟩ := sameOutput_interleaved .flowchart [] "TD" hbody hedges
  refine ⟨hbody, hedges, hmixed, ?_, by decide +kernel⟩
  exact hrepeated edgeFirst [] _ _ rfl List.mem_cons_self (by decide +kernel)

end Schematic.Diagram
