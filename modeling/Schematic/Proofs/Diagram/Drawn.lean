import Schematic.Diagram.Basic
import Schematic.Text.Distinct

/-!
# What drawing adds

Declaring a node adds its identifier and no edge; connecting two nodes adds an edge, unless it is
there, and no identifier. So the identifiers of a diagram are those of its nodes in the order of
drawing, and its edges are those of its links, the first one of each of equal ones.

## Main definitions

- `Node.event` — the event that declares a node
- `Link.drawn` — the edge that a connection is drawn as

## Main statements

- `events_nodes`, `events_group`, `events_links` — the events after many steps
- `nodeIds_nodes`, `nodeIds_group`, `nodeIds_groupUnlessEmpty`, `nodeIds_links` — the identifiers
  after many steps
- `edges_links`, `mem_edges_links`, `exists_of_mem_edges_links` — the edges after many steps
-/

namespace Schematic.Diagram

variable (d : Diagram)

/-! ## Events -/

/-- The event that declares a node. -/
def Node.event (n : Node) : Event :=
  .declared (identifier n.id) (Schematic.label (Text.join "\n" n.label)) (n.style.map Style.name)

@[simp] theorem events_empty (kind : Kind) (palette : List Style) :
    (empty kind palette).events = [] := rfl

@[simp] theorem events_edge (source target : String) (label : Option String) (dotted : Bool) :
    (d.edge source target label dotted).events = d.events := by
  unfold edge
  simp only
  split <;> rfl

@[simp] theorem events_links (ls : List Link) : (d.links ls).events = d.events := by
  induction ls generalizing d with
  | nil => rfl
  | cons l ls ih =>
    have hstep : d.links (l :: ls) = (d.edge l.source l.target l.label l.dotted).links ls := rfl
    rw [hstep, ih, events_edge]

/-- No style is nameless, so a node keeps the class name of its style. -/
theorem events_node (n : Node) :
    (d.node n.id n.label (n.style.map Style.name)).events = d.events ++ [n.event] := by
  have hstyle : (n.style.map Style.name).filter (· != "") = n.style.map Style.name := by
    cases n.style with
    | none => rfl
    | some style => cases style <;> rfl
  rw [node, Node.event, hstyle]

@[simp] theorem events_nodes (ns : List Node) :
    (d.nodes ns).events = d.events ++ ns.map Node.event := by
  induction ns generalizing d with
  | nil => exact (List.append_nil _).symm
  | cons n ns ih =>
    have hstep : d.nodes (n :: ns) =
        (d.node n.id n.label (n.style.map Style.name)).nodes ns := rfl
    rw [hstep, ih, events_node, List.append_assoc]
    rfl

@[simp] theorem events_group (id title : String) (ns : List Node) :
    (d.group id title ns).events = d.events ++
      .opened (identifier id) (Schematic.label title) :: (ns.map Node.event ++ [.closed]) := by
  simp [group, openGroup, closeGroup]

/-! ## Identifiers -/

@[simp] theorem nodeIds_empty (kind : Kind) (palette : List Style) :
    (empty kind palette).nodeIds = [] := rfl

@[simp] theorem nodeIds_openGroup (id title : String) :
    (d.openGroup id title).nodeIds = d.nodeIds := by
  simp [nodeIds, openGroup]

@[simp] theorem nodeIds_closeGroup : d.closeGroup.nodeIds = d.nodeIds := by
  simp [nodeIds, closeGroup]

@[simp] theorem nodeIds_node (id : String) (label : List String) (style : Option String) :
    (d.node id label style).nodeIds = d.nodeIds ++ [identifier id] := by
  simp [nodeIds, node]

@[simp] theorem nodeIds_nodes (ns : List Node) :
    (d.nodes ns).nodeIds = d.nodeIds ++ ns.map fun n => identifier n.id := by
  rw [nodeIds, nodeIds, events_nodes, List.filterMap_append, List.filterMap_map]
  exact congrArg (_ ++ ·) (congrFun List.filterMap_eq_map ns)

@[simp] theorem nodeIds_group (id title : String) (ns : List Node) :
    (d.group id title ns).nodeIds = d.nodeIds ++ ns.map fun n => identifier n.id := by
  simp [group]

@[simp] theorem nodeIds_groupUnlessEmpty (id title : String) (ns : List Node) :
    (d.groupUnlessEmpty id title ns).nodeIds = d.nodeIds ++ ns.map fun n => identifier n.id := by
  unfold groupUnlessEmpty
  split
  · next hempty => simp [List.isEmpty_iff.mp hempty]
  · exact nodeIds_group d id title ns

@[simp] theorem nodeIds_edge (source target : String) (label : Option String) (dotted : Bool) :
    (d.edge source target label dotted).nodeIds = d.nodeIds := by
  rw [nodeIds, events_edge]
  rfl

@[simp] theorem nodeIds_links (ls : List Link) : (d.links ls).nodeIds = d.nodeIds := by
  rw [nodeIds, events_links]
  rfl

/-! ## Edges -/

/-- The edge that a connection is drawn as. -/
def Link.drawn (l : Link) : Edge where
  source := identifier l.source
  target := identifier l.target
  label := (l.label.filter (· != "")).map Schematic.label
  dotted := l.dotted

@[simp] theorem edges_empty (kind : Kind) (palette : List Style) :
    (empty kind palette).edges = [] := rfl

@[simp] theorem edges_nodes (ns : List Node) : (d.nodes ns).edges = d.edges := by
  induction ns generalizing d with
  | nil => rfl
  | cons n ns ih => exact ih (d.node n.id n.label (n.style.map Style.name))

@[simp] theorem edges_group (id title : String) (ns : List Node) :
    (d.group id title ns).edges = d.edges :=
  edges_nodes (d.openGroup id title) ns

@[simp] theorem edges_groupUnlessEmpty (id title : String) (ns : List Node) :
    (d.groupUnlessEmpty id title ns).edges = d.edges := by
  unfold groupUnlessEmpty
  split
  · rfl
  · exact edges_group d id title ns

theorem mem_edges_edge {l : Link} {e : Edge} :
    e ∈ (d.edge l.source l.target l.label l.dotted).edges ↔ e ∈ d.edges ∨ e = l.drawn := by
  unfold edge
  simp only
  split
  · next hold =>
    refine ⟨.inl, ?_⟩
    rintro (h | rfl)
    · exact h
    · exact hold
  · rw [List.mem_append, List.mem_singleton]
    rfl

/-- The edges of links come behind those that were there before, the first one of each. -/
theorem edges_links (ls : List Link) : (d.links ls).edges =
    d.edges ++ ((ls.map Link.drawn).filter (· ∉ d.edges)).eraseDups := by
  have hstep (d : Diagram) (l : Link) : (d.edge l.source l.target l.label l.dotted).edges =
      if l.drawn ∈ d.edges then d.edges else d.edges ++ [l.drawn] := by
    unfold edge
    exact apply_ite Diagram.edges _ _ _
  have hfold : (d.links ls).edges =
      ls.foldl (fun es l => if l.drawn ∈ es then es else es ++ [l.drawn]) d.edges :=
    (List.foldl_hom Diagram.edges fun d l => (hstep d l).symm).symm
  rw [hfold, ← Text.foldl_append_new, List.foldl_map]

/-- If no edge was there before, the edges are those of the links. -/
theorem edges_links_of_edges_eq_nil (h : d.edges = []) (ls : List Link) :
    (d.links ls).edges = (ls.map Link.drawn).eraseDups := by
  have hall : (ls.map Link.drawn).filter (· ∉ d.edges) = ls.map Link.drawn :=
    List.filter_eq_self.mpr (by simp [h])
  rw [edges_links, hall, h, List.nil_append]

/-- Every edge was there before or is that of a link. -/
@[simp] theorem mem_edges_links {ls : List Link} {e : Edge} :
    e ∈ (d.links ls).edges ↔ e ∈ d.edges ∨ e ∈ ls.map Link.drawn := by
  rw [edges_links, List.mem_append, List.mem_eraseDups, List.mem_filter, decide_eq_true_iff]
  by_cases hold : e ∈ d.edges <;> simp [hold]

/-- If no edge was there before, every edge is that of a link. -/
theorem exists_of_mem_edges_links {d : Diagram} {ls : List Link} {e : Edge} (hd : d.edges = [])
    (he : e ∈ (d.links ls).edges) : ∃ l ∈ ls, l.drawn = e := by
  rw [mem_edges_links, hd, List.mem_map] at he
  exact he.resolve_left List.not_mem_nil

end Schematic.Diagram
