import Schematic.Proofs.Diagram.Fresh
import Schematic.Proofs.Drawing.Manifest

/-!
# Namespaces of manifests

The body of a drawing of manifests is one group for each namespace, in order of first appearance,
and in each group stand the nodes of the resources of that namespace, in order of the documents. So
the groups partition the resources. Namespaces that have the same words would have the same
identifier, but the groups are told apart by the identifiers that they are written under.

## Main definitions

- `Diagram.Node.lines`, `Diagram.groupLines` — the lines of a node and of a group of nodes
- `Kubernetes.Section`, `Kubernetes.IsPartition` — resources distributed over groups
- `Kubernetes.IsSectioned` — a drawing whose body is made of such groups

## Main statements

- `Diagram.bodyLines_groups` — groups of nodes are written one after the other
- `Kubernetes.isSectioned_draw` — the drawings of all lists of documents
-/

namespace Schematic

namespace Diagram

/-! ## Lines of groups -/

/-- The lines of a node at a depth: the node, and its class if it has a style. -/
def Node.lines (depth : Nat) (n : Node) : List String :=
  (indent depth ++ labelled (identifier n.id) (Schematic.label (Text.join "\n" n.label))) ::
    n.style.toList.map fun style =>
      indent depth ++ "class " ++ identifier n.id ++ " " ++ style.name

/-- The lines of a group of nodes under an identifier. -/
def groupLines (id title : String) (ns : List Node) : List String :=
  (indent 1 ++ "subgraph " ++ labelled id (label title)) :: ns.flatMap (Node.lines 2) ++
    [indent 1 ++ "end"]

/-- The events of a group of nodes that asks for the identifier of a name. -/
def groupEvents (name title : String) (ns : List Node) : List Event :=
  .opened (identifier name) (label title) :: (ns.map Node.event ++ [.closed])

theorem bodyLines_nodes (depth : Nat) (groups : List String) (ns : List Node)
    (rest : List Event) : bodyLines depth groups (ns.map Node.event ++ rest) =
      ns.flatMap (Node.lines depth) ++ bodyLines depth groups rest := by
  induction ns with
  | nil => rfl
  | cons n ns ih =>
    rw [List.map_cons, List.cons_append, Node.event, bodyLines, ih, List.flatMap_cons,
      List.append_assoc, Node.lines]
    cases n.style <;> rfl

theorem bodyLines_group (id name title : String) (ids : List String) (ns : List Node)
    (rest : List Event) : bodyLines 1 (id :: ids) (groupEvents name title ns ++ rest) =
      groupLines id title ns ++ bodyLines 1 ids rest := by
  -- The end of the group leads back to the depth at which it began.
  rw [groupEvents, List.cons_append, bodyLines, List.append_assoc, bodyLines_nodes,
    List.singleton_append, bodyLines, groupLines]
  simp

/-- Groups of nodes are written one after the other. -/
theorem bodyLines_groups {α : Type} (id name title : α → String) (ns : α → List Node)
    (xs : List α) :
    bodyLines 1 (xs.map id) (xs.flatMap fun x => groupEvents (name x) (title x) (ns x)) =
      xs.flatMap fun x => groupLines (id x) (title x) (ns x) := by
  induction xs with
  | nil => rfl
  | cons x xs ih =>
    rw [List.map_cons, List.flatMap_cons, List.flatMap_cons, bodyLines_group, ih]

theorem filterMap_openedId?_groupEvents (name title : String) (ns : List Node) :
    (groupEvents name title ns).filterMap openedId? = [identifier name] := by
  have hnodes : (ns.map Node.event ++ [Event.closed]).filterMap openedId? = [] := by
    rw [List.filterMap_eq_nil_iff, List.forall_mem_append, List.forall_mem_map]
    exact ⟨fun _ _ => rfl, List.forall_mem_singleton.mpr rfl⟩
  exact congrArg (identifier name :: ·) hnodes

/-- Each of the groups asks for the identifier of its name. -/
theorem filterMap_openedId?_groups {α : Type} (name title : α → String) (ns : α → List Node)
    (xs : List α) :
    (xs.flatMap fun x => groupEvents (name x) (title x) (ns x)).filterMap openedId? =
      (xs.map name).map identifier := by
  induction xs with
  | nil => rfl
  | cons x xs ih =>
    rw [List.flatMap_cons, List.filterMap_append, filterMap_openedId?_groupEvents, ih]
    rfl

end Diagram

namespace Drawing.Kubernetes

open Diagram

variable {rs : List Resource} {d : Diagram}

/-! ## Sections -/

/-- Some resources in a group for their namespace, with the identifier that it is written under. -/
structure Section where
  id : String
  space : String
  members : List Resource

/-- The lines of a section: its group, and in it the nodes of its members. -/
def Section.lines (s : Section) : List String :=
  groupLines s.id ("🏠 Namespace: " ++ s.space) (s.members.map nodeOf)

/-- Resources distributed over sections by their namespaces. -/
structure IsPartition (rs : List Resource) (sections : List Section) : Prop where
  /-- One section for each namespace, in order of first appearance. -/
  spaces_eq : sections.map Section.space = (rs.map Resource.space).eraseDups
  nodup : (sections.map Section.space).Nodup
  /-- The members stand in the order of the resources. -/
  members_eq : ∀ s ∈ sections, s.members = rs.filter fun r => r.space == s.space
  /-- A resource is in the section of its namespace and in no other. -/
  mem_members_iff : ∀ s ∈ sections, ∀ r ∈ rs, r ∈ s.members ↔ s.space = r.space
  /-- No resource is left out or taken twice. -/
  perm : (sections.flatMap Section.members).Perm rs

/-- A drawing whose body is made of sections. -/
structure IsSectioned (rs : List Resource) (sections : List Section) (d : Diagram) : Prop where
  isPartition : IsPartition rs sections
  isNaming : IsNaming (sections.map fun s => "NS_" ++ s.space) d.takenIds (sections.map Section.id)
  node_eq : ∀ r ∈ rs, node r = .ok (nodeOf r)
  /-- Outside the sections there are no groups and no nodes. -/
  splitAtChar_markup : ∃ header back, isBodyLine header = false ∧
    (∀ line ∈ back, isBodyLine line = false) ∧ Text.splitAtChar '\n' d.markup.toList =
      header :: ((sections.flatMap Section.lines).map String.toList ++ back)

/-- The sections of a drawing. -/
def sectionsOf (rs : List Resource) (d : Diagram) : List Section :=
  (d.groupIds.zip (namespaces rs)).map fun (id, space) => ⟨id, space, members rs space⟩

/-! ## The sections of a drawing -/

/-- The events of groups that are drawn one after the other. -/
theorem events_groups (d : Diagram) (groups : List (String × List Node)) :
    (groups.foldl (fun d (space, nodes) =>
      d.group ("NS_" ++ space) ("🏠 Namespace: " ++ space) nodes) d).events =
      d.events ++ groups.flatMap fun g =>
        groupEvents ("NS_" ++ g.1) ("🏠 Namespace: " ++ g.1) g.2 := by
  induction groups generalizing d with
  | nil => simp
  | cons g groups ih =>
    rw [List.foldl_cons, ih, events_group, List.flatMap_cons, List.append_assoc]
    rfl

namespace IsDrawnFrom

/-- Edges come into no group, so the events are those of the groups. -/
theorem events_eq (h : IsDrawnFrom rs d) : d.events = (namespaces rs).flatMap fun space =>
    groupEvents ("NS_" ++ space) ("🏠 Namespace: " ++ space) ((members rs space).map nodeOf) := by
  obtain ⟨ls, -, rfl⟩ := h.exists_links
  rw [events_links, drawnGroups, events_groups, events_empty, List.nil_append, groupsOf,
    List.flatMap_map]

/-- The groups are named for the namespaces. -/
theorem isNaming_groupIds (h : IsDrawnFrom rs d) :
    IsNaming ((namespaces rs).map ("NS_" ++ ·)) d.takenIds d.groupIds := by
  apply Diagram.isNaming_groupIds
  rw [← filterMap_openedId?_groups _ _ _ (namespaces rs), ← h.events_eq]
  rfl

/-- There are as many groups as namespaces. -/
theorem length_groupIds (h : IsDrawnFrom rs d) : d.groupIds.length = (namespaces rs).length := by
  rw [h.isNaming_groupIds.length_eq, List.length_map]

theorem map_id_sectionsOf (h : IsDrawnFrom rs d) :
    (sectionsOf rs d).map Section.id = d.groupIds := by
  rw [sectionsOf, List.map_map]
  exact List.map_fst_zip (Nat.le_of_eq h.length_groupIds)

theorem map_space_sectionsOf (h : IsDrawnFrom rs d) :
    (sectionsOf rs d).map Section.space = namespaces rs := by
  rw [sectionsOf, List.map_map]
  exact List.map_snd_zip (Nat.le_of_eq h.length_groupIds.symm)

end IsDrawnFrom

theorem members_of_mem_sectionsOf {s : Section} (h : s ∈ sectionsOf rs d) :
    s.members = members rs s.space := by
  obtain ⟨p, -, rfl⟩ := List.mem_map.mp h
  rfl

theorem isPartition_sectionsOf (h : IsDrawnFrom rs d) : IsPartition rs (sectionsOf rs d) where
  spaces_eq := by
    rw [h.map_space_sectionsOf, namespaces, Text.distinct_eq_eraseDups]
  nodup := by
    rw [h.map_space_sectionsOf]
    exact Text.nodup_distinct _
  members_eq := fun s => members_of_mem_sectionsOf
  mem_members_iff := by
    intro s hs r hr
    rw [members_of_mem_sectionsOf hs, members, List.mem_filter, beq_iff_eq]
    exact ⟨fun h => h.2.symm, fun h => ⟨hr, h.symm⟩⟩
  perm := by
    have hmembers : (sectionsOf rs d).flatMap Section.members = grouped rs := by
      rw [grouped, ← h.map_space_sectionsOf, List.flatMap_map]
      exact List.flatMap_congr fun s => members_of_mem_sectionsOf
    rw [hmembers]
    exact perm_grouped rs

/-- The sections of a drawing are its groups. -/
theorem bodyLines_sectionsOf (h : IsDrawnFrom rs d) :
    bodyLines 1 d.groupIds d.events = (sectionsOf rs d).flatMap Section.lines := by
  have hevents : d.events = (sectionsOf rs d).flatMap fun s =>
      groupEvents ("NS_" ++ s.space) ("🏠 Namespace: " ++ s.space) (s.members.map nodeOf) := by
    rw [h.events_eq, ← h.map_space_sectionsOf, List.flatMap_map]
    exact List.flatMap_congr fun s hs => by rw [members_of_mem_sectionsOf hs]
  rw [hevents, ← h.map_id_sectionsOf, bodyLines_groups]
  rfl

/-- The lines of a drawing are a header, the sections, and lines that belong to no group. -/
theorem splitAtChar_sectionsOf (h : IsDrawnFrom rs d) (hsound : IsSound styles false d) :
    ∃ header back, isBodyLine header = false ∧ (∀ line ∈ back, isBodyLine line = false) ∧
      Text.splitAtChar '\n' d.markup.toList =
        header :: (((sectionsOf rs d).flatMap Section.lines).map String.toList ++ back) := by
  have hpalette : styles ≠ [] := by decide
  refine ⟨(d.kind.name ++ " TD").toList, d.layout.edges ++ [] :: d.layout.styles ++ [[]],
    isBodyLine_header d.kind, ?_, ?_⟩
  · rw [List.forall_mem_append]
    exact ⟨hsound.isBodyLine_of_mem hpalette, List.forall_mem_singleton.mpr rfl⟩
  · rw [hsound.splitAtChar_markup hpalette, ← bodyLines_sectionsOf h, Layout.lines,
      List.cons_append, List.append_assoc]
    rfl

/-- The resources of a list of documents are drawn in groups for their namespaces, unless one of the
documents holds an integer that is too long. -/
theorem isSectioned_draw (documents : List Value) :
    (∃ e, draw documents = .error e ∧ ∃ document ∈ documents, document.isWritable = false) ∨
      ∃ rs d sections, draw documents = .ok d ∧ d.render = .ok d.markup ∧
        AreResources documents rs ∧ IsSectioned rs sections d := by
  rcases draw_eq_error_or_ok documents with herror | ⟨rs, d, hdraw, hrender, hrs, hdrawn⟩
  · exact .inl herror
  · refine .inr ⟨rs, d, sectionsOf rs d, hdraw, hrender, hrs, isPartition_sectionsOf hdrawn, ?_,
      hdrawn.node_eq, splitAtChar_sectionsOf hdrawn (isSound_draw hdraw)⟩
    have hnames : (sectionsOf rs d).map (fun s => "NS_" ++ s.space) =
        (namespaces rs).map ("NS_" ++ ·) := by
      rw [← hdrawn.map_space_sectionsOf, List.map_map]
      rfl
    rw [hnames, hdrawn.map_id_sectionsOf]
    exact hdrawn.isNaming_groupIds

/-- Two namespaces with the same words have two groups, and a document that is no mapping counts in
the names of those behind it. -/
example : (draw [.null, .map [("metadata", .map [("namespace", .str "x.y")])],
    .map [("metadata", .map [("namespace", .str "x_y")])]]).toOption.map
    (fun d => (d.groupIds, d.nodeIds)) = some (["NS_x_y", "NS_x_y_group"],
      ["Unknown_resource_1_x_y", "Unknown_resource_2_x_y"]) := by decide +kernel

end Drawing.Kubernetes

end Schematic
