import Mathlib.Data.List.Nodup
import Schematic.Proofs.Drawing.Manifest

/-!
# Templates as they are drawn

The identifier of a resource is made of its type, its name and its index in the list of resources.
Of the first two nothing may be left, but the index is a word of its own at the end, so different
resources have different identifiers, and none is that of a placeholder, which ends in a word
without digits. A placeholder is declared for every expression that a resource depends on, and its
identifier tells no more than the words of the expression. So expressions that differ in other
characters only have placeholders with one identifier, and it is declared for each of them.

## Main definitions

- `ResourceManager.IsListed`, `ResourceManager.IsResourceId` — the resources of a template and the
  identifiers of their nodes
- `ResourceManager.placeholderIds` — the identifiers of the placeholders
- `ResourceManager.HasOverlongName` — what keeps a template from being drawn
- `ResourceManager.IsDependencyOf` — the edges to a resource
- `ResourceManager.IsUnambiguous`, `ResourceManager.CountsExpressions` — what the identifiers of a
  drawing tell

## Main statements

- `ResourceManager.IsResourceId.index_eq` — the identifier of a resource tells its index
- `ResourceManager.isUnambiguous_draw` — the resources and edges of all templates
- `ResourceManager.countsExpressions_draw` — the placeholders of all templates
- `ResourceManager.not_count_placeholderId_eq_one` — a placeholder may be declared twice
-/

namespace Schematic.Drawing.ResourceManager

open Diagram Identifier

variable {tree : Value} {d : Diagram} {index other : Nat} {resource : Value} {id : String}
  {ids : List String}

/-! ## Resources and their identifiers -/

/-- A mapping at an index of the list of resources. -/
def IsListed (tree : Value) (index : Nat) (resource : Value) : Prop :=
  (tree.getListed "resources")[index]? = some resource ∧ resource.isMap = true

theorem mem_resources_iff : (resource, index) ∈ resources tree ↔ IsListed tree index resource := by
  rw [resources, List.mem_filter, List.mem_zipIdx_iff_getElem?]
  rfl

/-- The identifier of the node of a resource. -/
def IsResourceId (index : Nat) (resource : Value) (id : String) : Prop :=
  ∃ type name, resource.IsNamed "type" "Unknown" type ∧
    resource.IsNamed "name" s!"resource_{index}" name ∧ id = identifier s!"{type}_{name}_{index}"

/-- It is the one of the name that is given to the node. -/
theorem isResourceId_iff : IsResourceId index resource id ↔
    ∃ name, resourceName resource index = .ok name ∧ id = identifier name := by
  constructor
  · rintro ⟨type, name, htype, hname, rfl⟩
    exact ⟨_, bind_eq_ok (Value.nameOr_eq_ok_iff.mpr htype)
      (bind_eq_ok (Value.nameOr_eq_ok_iff.mpr hname) rfl), rfl⟩
  · rintro ⟨full, h, rfl⟩
    obtain ⟨type, htype, h⟩ := exists_of_bind_eq_ok h
    obtain ⟨name, hname, h⟩ := exists_of_bind_eq_ok h
    obtain rfl := Except.ok.inj h
    exact ⟨type, name, Value.nameOr_eq_ok_iff.mp htype, Value.nameOr_eq_ok_iff.mp hname, rfl⟩

/-- A resource has one identifier only. -/
theorem IsResourceId.unique {id' : String} (h : IsResourceId index resource id)
    (h' : IsResourceId index resource id') : id = id' := by
  obtain ⟨name, hname, rfl⟩ := isResourceId_iff.mp h
  obtain ⟨name', hname', rfl⟩ := isResourceId_iff.mp h'
  rw [Except.ok.inj (hname.symm.trans hname')]

/-- The last word of an identifier of a resource is its index. -/
theorem IsResourceId.exists_marked (h : IsResourceId index resource id) :
    ∃ name ws, id = identifier name ∧ words name.toList = ws ++ [Nat.toDigits 10 index] := by
  obtain ⟨type, name, -, -, rfl⟩ := h
  have hchars : s!"{type}_{name}_{index}".toList =
      (type.toList ++ '_' :: name.toList) ++ '_' :: Nat.toDigits 10 index := by
    simp [toString, Nat.repr]
  exact ⟨_, _, rfl, by rw [hchars, words_append_toDigits]⟩

/-- Whatever types and names resources have, their identifiers tell their indexes. -/
theorem IsResourceId.index_eq {resource' : Value} (h : IsResourceId index resource id)
    (h' : IsResourceId other resource' id) : index = other := by
  obtain ⟨name, ws, rfl, hwords⟩ := h.exists_marked
  obtain ⟨name', ws', heq, hwords'⟩ := h'.exists_marked
  rw [identifier_eq_iff, hwords, hwords'] at heq
  exact eq_of_marked_append_toDigits heq

/-- The words of the name of a placeholder are those of the expression and one more. -/
theorem words_placeholderId (dependency : String) :
    words (placeholderId dependency).toList = words dependency.toList ++ ["dep".toList] := by
  have hchars : (placeholderId dependency).toList = dependency.toList ++ '_' :: "dep".toList := by
    rw [placeholderId, String.toList_append]
    rfl
  rw [hchars, words_append_word (by simp) (by simp) (by decide)]

/-- No resource has the identifier of a placeholder. -/
theorem IsResourceId.ne_placeholder (h : IsResourceId index resource id) (dependency : String) :
    id ≠ identifier (placeholderId dependency) := by
  obtain ⟨name, ws, rfl, hwords⟩ := h.exists_marked
  rw [Ne, identifier_eq_iff, hwords, words_placeholderId]
  exact marked_append_toDigits_ne (by decide) (by decide) (by decide)

/-- The identifiers of all resources, in order. -/
def AreResourceIds (tree : Value) (ids : List String) : Prop :=
  List.Forall₂ (fun (resource, index) id => IsResourceId index resource id) (resources tree) ids

/-- The identifiers of the placeholders, one for each of the different expressions. -/
def placeholderIds (tree : Value) : List String :=
  (distinctDependencies tree).map fun dependency => identifier (placeholderId dependency)

/-- Resources have indexes of their own, so their identifiers are all different. -/
theorem AreResourceIds.nodup (h : AreResourceIds tree ids) : ids.Nodup := by
  have hindexes : ((resources tree).map Prod.snd).Nodup := by
    have hall : ((tree.getListed "resources").zipIdx.map Prod.snd).Nodup := by
      rw [List.zipIdx_map_snd]
      exact List.nodup_range'
    exact hall.sublist (List.filter_sublist.map Prod.snd)
  unfold AreResourceIds at h
  generalize resources tree = entries at h hindexes
  induction h with
  | nil => exact .nil
  | cons hid hids ih =>
    rw [List.map_cons, List.nodup_cons] at hindexes
    refine List.nodup_cons.mpr ⟨fun hmem => hindexes.1 ?_, ih hindexes.2⟩
    -- A resource further on with the same identifier would have the same index.
    obtain ⟨later, hlater, hid'⟩ := exists_mem_of_forall₂ hids _ hmem
    rw [hid.index_eq hid']
    exact List.mem_map_of_mem hlater

theorem AreResourceIds.ne_placeholder (h : AreResourceIds tree ids) :
    ∀ id ∈ ids, ∀ dependency, id ≠ identifier (placeholderId dependency) := by
  intro id hid
  obtain ⟨_, _, hresource⟩ := exists_mem_of_forall₂ h id hid
  exact hresource.ne_placeholder

theorem AreResourceIds.identifier_eq (h : AreResourceIds tree ids) :
    ∀ id ∈ ids, identifier id = id := by
  intro id hid
  obtain ⟨_, _, _, _, _, _, rfl⟩ := exists_mem_of_forall₂ h id hid
  exact identifier_identifier _

/-! ## Drawings -/

/-- The type or the name of a resource is an integer that is too long to be written. -/
def HasOverlongName (tree : Value) : Prop :=
  ∃ index resource, IsListed tree index resource ∧
    ((resource.get "type").isWritable = false ∨ (resource.get "name").isWritable = false)

/-- A template without such names is drawn. -/
theorem draw_eq_error_or_ok (tree : Value) :
    (∃ e, draw tree = .error e ∧ HasOverlongName tree) ∨
      ∃ d, draw tree = .ok d ∧ d.render = .ok d.markup := by
  have hwritable (hnone : ¬HasOverlongName tree) : Succeeds (draw tree) := by
    unfold HasOverlongName at hnone
    push Not at hnone
    refine succeeds_draw_of_names fun e he => ?_
    simpa using hnone e.2 e.1 (mem_resources_iff.mp he)
  rcases eq_error_or_eq_ok hwritable with herror | ⟨d, hdraw⟩
  · exact .inl herror
  · exact .inr ⟨d, hdraw, (isSound_draw hdraw).render_eq_ok⟩

/-- The nodes of a drawing are the resources and then the placeholders. -/
theorem exists_areResourceIds (h : draw tree = .ok d) :
    ∃ ids, AreResourceIds tree ids ∧ d.nodeIds = ids ++ placeholderIds tree := by
  obtain ⟨names, hnames, hids⟩ := nodeIds_draw h
  obtain ⟨declared, hdeclared, hnames⟩ := exists_of_bind_eq_ok hnames
  obtain rfl := Except.ok.inj hnames
  refine ⟨declared.map identifier, ?_, ?_⟩
  · rw [AreResourceIds, List.forall₂_map_right_iff]
    exact (mapM_eq_ok_iff.mp hdeclared).imp fun e name hname =>
      isResourceId_iff.mpr ⟨name, hname, rfl⟩
  · rw [hids, List.map_append, List.map_map]
    rfl

theorem mem_dependencies_iff {dependency : String} : dependency ∈ dependencies resource ↔
    .str dependency ∈ (resource.get "dependsOn").items := by
  rw [dependencies, Value.textItems, List.mem_filterMap]
  constructor
  · rintro ⟨item, hitem, htext⟩
    cases item with
    | str text => exact Option.some.inj htext ▸ hitem
    | _ => cases htext
  · exact fun h => ⟨_, h, rfl⟩

/-- A plain edge from the placeholder of an expression to a resource that depends on it. -/
def IsDependencyOf (index : Nat) (resource : Value) (e : Edge) : Prop :=
  ∃ dependency, .str dependency ∈ (resource.get "dependsOn").items ∧
    e.source = identifier (placeholderId dependency) ∧ IsResourceId index resource e.target ∧
    e.label = none ∧ e.dotted = false

theorem exists_drawn_eq_iff {n : Node} (hn : resourceNode resource index = .ok n) {e : Edge} :
    (∃ dependency ∈ dependencies resource,
      Link.drawn { source := placeholderId dependency, target := n.id } = e) ↔
      IsDependencyOf index resource e := by
  have hid : IsResourceId index resource (identifier n.id) :=
    isResourceId_iff.mpr ⟨n.id, resourceName_eq_ok hn, rfl⟩
  constructor
  · rintro ⟨dependency, hmem, rfl⟩
    exact ⟨dependency, mem_dependencies_iff.mp hmem, rfl, hid, rfl, rfl⟩
  · rintro ⟨dependency, hmem, hsource, htarget, hlabel, hdotted⟩
    refine ⟨dependency, mem_dependencies_iff.mpr hmem, ?_⟩
    cases e
    simp only at hsource htarget hlabel hdotted
    rw [hsource, htarget.unique hid, hlabel, hdotted]
    rfl

theorem mem_edges_draw (h : draw tree = .ok d) {e : Edge} : e ∈ d.edges ↔
    ∃ index resource, IsListed tree index resource ∧ IsDependencyOf index resource e := by
  obtain ⟨drawn, hdrawn, h⟩ := exists_of_bind_eq_ok h
  obtain rfl := Except.ok.inj h
  have hlinks : (∃ pair ∈ drawn, ∃ dependency ∈ pair.2,
      Link.drawn { source := placeholderId dependency, target := pair.1.id } = e) ↔
      ∃ entry ∈ resources tree, IsDependencyOf entry.2 entry.1 e := by
    refine exists_mem_iff_of_mapM_eq_ok hdrawn fun entry pair hpair => ?_
    obtain ⟨n, hn, hpair⟩ := exists_of_bind_eq_ok hpair
    obtain rfl := Except.ok.inj hpair
    exact exists_drawn_eq_iff hn
  simp only [mem_edges_links, edges_nodes, edges_empty, List.not_mem_nil, false_or,
    List.map_flatMap, List.mem_flatMap, List.map_map, List.mem_map, Function.comp_apply]
  refine hlinks.trans ?_
  simp only [Prod.exists, mem_resources_iff]
  exact exists_comm

/-! ## What the identifiers tell -/

/-- Two expressions whose placeholders cannot be told apart. -/
def SameWords (dependency other : String) : Prop :=
  marked (words dependency.toList ++ ["dep".toList]) =
    marked (words other.toList ++ ["dep".toList])

instance (dependency other : String) : Decidable (SameWords dependency other) :=
  inferInstanceAs (Decidable (_ = _))

theorem identifier_placeholderId_eq_iff {dependency other : String} :
    identifier (placeholderId dependency) = identifier (placeholderId other) ↔
      SameWords dependency other := by
  rw [identifier_eq_iff, words_placeholderId, words_placeholderId, SameWords]

/-- A drawing that declares one node for every resource and one for every expression. -/
structure CountsExpressions (tree : Value) (d : Diagram) : Prop where
  nodeCount_eq : d.nodeCount = (resources tree).length + (distinctDependencies tree).length
  /-- A placeholder is declared as often as there are different expressions of its words. -/
  count_eq : ∀ dependency ∈ distinctDependencies tree,
    (nodeIdsOf (Text.splitAtChar '\n' d.markup.toList)).count
      (identifier (placeholderId dependency)) =
      (distinctDependencies tree).countP fun other => SameWords other dependency
  nodup_iff : (nodeIdsOf (Text.splitAtChar '\n' d.markup.toList)).Nodup ↔
    ∀ dependency ∈ distinctDependencies tree, ∀ other ∈ distinctDependencies tree,
      SameWords dependency other → dependency = other

theorem AreResourceIds.count_append (h : AreResourceIds tree ids) (dependency : String) :
    (ids ++ placeholderIds tree).count (identifier (placeholderId dependency)) =
      (distinctDependencies tree).countP fun other => SameWords other dependency := by
  have hnone : ids.count (identifier (placeholderId dependency)) = 0 :=
    List.count_eq_zero_of_not_mem fun hmem => h.ne_placeholder _ hmem dependency rfl
  rw [List.count_append, hnone, Nat.zero_add, placeholderIds, List.count, List.countP_map]
  refine List.countP_congr fun other _ => ?_
  simp [identifier_placeholderId_eq_iff]

theorem AreResourceIds.nodup_append_iff (h : AreResourceIds tree ids) :
    (ids ++ placeholderIds tree).Nodup ↔
      ∀ dependency ∈ distinctDependencies tree, ∀ other ∈ distinctDependencies tree,
        SameWords dependency other → dependency = other := by
  have hdistinct : (distinctDependencies tree).Nodup := by
    rw [distinctDependencies, ← Text.distinct_eq_eraseDups]
    exact Text.nodup_distinct _
  have hdisjoint : ∀ id ∈ ids, ∀ other ∈ placeholderIds tree, id ≠ other := by
    intro id hid other hother
    obtain ⟨dependency, -, rfl⟩ := List.mem_map.mp hother
    exact h.ne_placeholder id hid dependency
  rw [List.nodup_append, and_iff_right h.nodup, and_iff_left hdisjoint, placeholderIds,
    List.nodup_map_iff_inj_on hdistinct]
  simp only [identifier_placeholderId_eq_iff]

/-- The placeholders of every template are counted by their expressions, and the same identifier is
declared again exactly if two of these have the same words, unless a name is too long to be
written. -/
theorem countsExpressions_draw (tree : Value) :
    (∃ e, draw tree = .error e ∧ HasOverlongName tree) ∨
      ∃ d, draw tree = .ok d ∧ d.render = .ok d.markup ∧ CountsExpressions tree d := by
  rcases draw_eq_error_or_ok tree with herror | ⟨d, hdraw, hrender⟩
  · exact .inl herror
  · obtain ⟨ids, hresources, hids⟩ := exists_areResourceIds hdraw
    have hdeclared := (isSound_draw hdraw).isLegible.nodeIdsOf_splitAtChar.trans hids
    refine .inr ⟨d, hdraw, hrender, ?_, ?_, ?_⟩
    · rw [nodeCount, hids, List.length_append, ← hresources.length_eq, placeholderIds,
        List.length_map]
    · rw [hdeclared]
      exact fun dependency _ => hresources.count_append dependency
    · rw [hdeclared]
      exact hresources.nodup_append_iff

/-- Two machines that depend on one network, by two spellings of one expression. -/
def twoSpellings : Value :=
  .map [("resources", .list [
    .map [("type", .str "vm"), ("name", .str "first"),
      ("dependsOn", .list [.str "[resourceId('Microsoft.Network/virtualNetworks', 'net')]"])],
    .map [("type", .str "vm"), ("name", .str "second"),
      ("dependsOn", .list [.str "[resourceId('Microsoft.Network/virtualNetworks','net')]"])]])]

/-- A placeholder may be declared twice. -/
theorem not_count_placeholderId_eq_one : ¬∀ tree d, draw tree = .ok d →
    ∀ dependency ∈ distinctDependencies tree,
      (nodeIdsOf (Text.splitAtChar '\n' d.markup.toList)).count
        (identifier (placeholderId dependency)) = 1 := by
  intro h
  have hdrawn : (draw twoSpellings).toOption.map nodeIds = some ["vm_first_0", "vm_second_1",
      "resourceId_Microsoft_Network_virtualNetworks_net_dep",
      "resourceId_Microsoft_Network_virtualNetworks_net_dep"] := by decide +kernel
  obtain ⟨d, hd, hids⟩ := exists_of_toOption_map_eq_some hdrawn
  have hcount := h twoSpellings d hd
    "[resourceId('Microsoft.Network/virtualNetworks', 'net')]" (by decide +kernel)
  rw [(isSound_draw hd).isLegible.nodeIdsOf_splitAtChar, hids] at hcount
  exact absurd hcount (by decide +kernel)

end Schematic.Drawing.ResourceManager
