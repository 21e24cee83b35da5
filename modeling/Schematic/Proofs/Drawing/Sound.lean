import Schematic.Drawing.Generate
import Schematic.Proofs.Diagram.Layout
import Schematic.Proofs.Success

/-!
# What is drawn is sound

Every way of drawing starts with an empty diagram of its palette and goes on in steps that keep it
sound, so all that is left to see is that its nodes have styles of that palette. Styles are either
named or chosen by the rules of the format, and these name no others.

## Main statements

- `Compose.isSound_draw`, `Kubernetes.isSound_draw`, `Terraform.isSound_draw`,
  `CloudFormation.isSound_draw`, `ResourceManager.isSound_draw`, `IbmCloud.isSound_draw` — the
  diagrams of each format
- `isSound_of_draw_eq_ok` — the diagrams of all documents
- `exists_layout_of_draw_eq_ok` — the layout of their markup
-/

namespace Schematic.Drawing

open Diagram

/-! ## Styles -/

/-- Rules choose no other styles than their own. -/
theorem mem_of_mem_classify? {rules : StyleRules} {palette : List Style}
    (h : ∀ rule ∈ rules, rule.2 ∈ palette) (text : String) :
    ∀ style ∈ classify? rules text, style ∈ palette := by
  intro style hstyle
  obtain ⟨rule, hrule, rfl⟩ := Option.map_eq_some_iff.mp hstyle
  exact h rule (List.mem_of_find?_eq_some hrule)

theorem mem_of_mem_some {style : Style} {palette : List Style} (h : style ∈ palette) :
    ∀ s ∈ some style, s ∈ palette := by
  rintro s hs
  exact Option.some.inj hs ▸ h

/-- Nodes that are made one by one. -/
theorem isStyled_of_mapM {α : Type} {palette : List Style} {f : α → Except NumberError Node}
    {xs : List α} {ns : List Node} (h : xs.mapM f = .ok ns)
    (hf : ∀ x n, f x = .ok n → n.IsStyled palette) : ∀ n ∈ ns, n.IsStyled palette := by
  intro n hn
  obtain ⟨x, -, hx⟩ := exists_mem_of_mapM_eq_ok h n hn
  exact hf x n hx

variable {tree : Value} {d : Diagram}

/-! ## Compositions -/

namespace Compose

theorem isStyled_serviceNode {name : String} {config : Value} {n : Node}
    (h : serviceNode name config = .ok n) : n.IsStyled styles := by
  obtain ⟨image, -, h⟩ := exists_of_bind_eq_ok h
  obtain ⟨label, -, h⟩ := exists_of_bind_eq_ok h
  obtain rfl := Except.ok.inj h
  exact mem_of_mem_classify? (by decide) image

theorem isStyled_networkNode {name : String} {config : Value} {n : Node}
    (h : networkNode name config = .ok n) : n.IsStyled styles := by
  obtain ⟨driver, -, h⟩ := exists_of_bind_eq_ok h
  obtain rfl := Except.ok.inj h
  exact mem_of_mem_some (by decide)

theorem isStyled_volumeNode {name : String} {config : Value} {n : Node}
    (h : volumeNode name config = .ok n) : n.IsStyled styles := by
  obtain ⟨driver, -, h⟩ := exists_of_bind_eq_ok h
  obtain rfl := Except.ok.inj h
  exact mem_of_mem_some (by decide)

theorem isSound_draw (h : draw tree = .ok d) : IsSound styles false d := by
  obtain ⟨services, hservices, h⟩ := exists_of_bind_eq_ok h
  obtain ⟨networks, hnetworks, h⟩ := exists_of_bind_eq_ok h
  obtain ⟨volumes, hvolumes, h⟩ := exists_of_bind_eq_ok h
  have hservices := isStyled_of_mapM hservices fun _ _ => isStyled_serviceNode
  have hnetworks := isStyled_of_mapM hnetworks fun _ _ => isStyled_networkNode
  have hvolumes := isStyled_of_mapM hvolumes fun _ _ => isStyled_volumeNode
  have hgroups := (((isSound_empty .flowchart styles).group "Services" "🚀 Services"
    hservices).groupUnlessEmpty "Networks" "🌐 Networks" hnetworks).groupUnlessEmpty "Volumes"
    "💾 Volumes" hvolumes
  have hlinked (first second third : List Link) := ((hgroups.links first).links second).links third
  -- Without volumes no mounts are read; the links are drawn in both cases.
  simp only at h
  split at h
  · obtain ⟨mountLinks, -, h⟩ := exists_of_bind_eq_ok h
    exact Except.ok.inj h ▸ hlinked _ _ _
  · obtain ⟨mountLinks, -, h⟩ := exists_of_bind_eq_ok h
    exact Except.ok.inj h ▸ hlinked _ _ _

end Compose

/-! ## Cluster manifests -/

namespace Kubernetes

theorem mem_of_mem_kindStyle? (kind : String) : ∀ style ∈ kindStyle? kind, style ∈ styles := by
  -- Every kind that has a style names one of the palette, and the others have none.
  unfold kindStyle?
  split
  all_goals first
    | exact mem_of_mem_some (by decide)
    | exact fun _ hstyle => by cases hstyle

theorem isStyled_node {r : Resource} {n : Node} (h : node r = .ok n) : n.IsStyled styles := by
  obtain ⟨lines, -, h⟩ := exists_of_bind_eq_ok h
  obtain rfl := Except.ok.inj h
  exact mem_of_mem_kindStyle? r.kind

/-- Groups for namespaces one after the other. -/
theorem isSound_groups {groups : List (String × List Node)} (h : IsSound styles false d)
    (hgroups : ∀ g ∈ groups, ∀ n ∈ g.2, n.IsStyled styles) :
    IsSound styles false (groups.foldl (fun d (space, nodes) =>
      d.group ("NS_" ++ space) ("🏠 Namespace: " ++ space) nodes) d) := by
  induction groups generalizing d with
  | nil => exact h
  | cons g groups ih =>
    have hg := h.group ("NS_" ++ g.1) ("🏠 Namespace: " ++ g.1) (hgroups g List.mem_cons_self)
    exact ih hg fun g' hg' => hgroups g' (List.mem_cons_of_mem _ hg')

theorem isSound_draw {documents : List Value} (h : draw documents = .ok d) :
    IsSound styles false d := by
  obtain ⟨rs, -, h⟩ := exists_of_bind_eq_ok h
  obtain ⟨groups, hgroups, h⟩ := exists_of_bind_eq_ok h
  obtain ⟨edges, -, h⟩ := exists_of_bind_eq_ok h
  obtain rfl := Except.ok.inj h
  have hstyled : ∀ g ∈ groups, ∀ n ∈ g.2, n.IsStyled styles := by
    intro g hg
    obtain ⟨space, -, hspace⟩ := exists_mem_of_mapM_eq_ok hgroups g hg
    obtain ⟨nodes, hnodes, hspace⟩ := exists_of_bind_eq_ok hspace
    obtain rfl := Except.ok.inj hspace
    exact isStyled_of_mapM hnodes fun _ _ => isStyled_node
  exact (isSound_groups (isSound_empty .flowchart styles) hstyled).links _

end Kubernetes

/-! ## Configurations of resources -/

namespace Terraform

theorem isStyled_resourceNode {type name : String} {config : Value} {n : Node}
    (h : resourceNode type name config = .ok n) : n.IsStyled styles := by
  obtain ⟨details, -, h⟩ := exists_of_bind_eq_ok h
  obtain ⟨count, -, h⟩ := exists_of_bind_eq_ok h
  obtain rfl := Except.ok.inj h
  exact mem_of_mem_classify? (by decide) type

theorem isStyled_variableNode {name : String} {info : Value} {n : Node}
    (h : variableNode name info = .ok n) : n.IsStyled styles := by
  obtain ⟨type, -, h⟩ := exists_of_bind_eq_ok h
  -- With or without a description, the node has the one style of variables.
  simp only at h
  split at h
  · obtain ⟨text, -, h⟩ := exists_of_bind_eq_ok h
    obtain ⟨description, -, h⟩ := exists_of_bind_eq_ok h
    obtain rfl := Except.ok.inj h
    exact mem_of_mem_some (by decide)
  · obtain ⟨description, -, h⟩ := exists_of_bind_eq_ok h
    obtain rfl := Except.ok.inj h
    exact mem_of_mem_some (by decide)

theorem isStyled_dataNodes (entries : List (String × String × Value)) :
    ∀ n ∈ entries.map fun (type, name, config) => dataNode type name config,
      n.IsStyled styles := by
  intro n hn
  obtain ⟨entry, -, rfl⟩ := List.mem_map.mp hn
  exact mem_of_mem_some (by decide)

theorem isStyled_moduleNode {name : String} {config : Value} {n : Node}
    (h : moduleNode name config = .ok n) : n.IsStyled styles := by
  obtain ⟨source, -, h⟩ := exists_of_bind_eq_ok h
  obtain rfl := Except.ok.inj h
  exact mem_of_mem_some (by decide)

theorem isSound_draw {doc : Document} (h : draw doc = .ok d) : IsSound styles false d := by
  obtain ⟨found, -, h⟩ := exists_of_bind_eq_ok h
  obtain ⟨inputs, hvariables, h⟩ := exists_of_bind_eq_ok h
  obtain ⟨resources, hresources, h⟩ := exists_of_bind_eq_ok h
  obtain ⟨modules, hmodules, h⟩ := exists_of_bind_eq_ok h
  obtain rfl := Except.ok.inj h
  have hvariables := isStyled_of_mapM hvariables fun _ _ => isStyled_variableNode
  have hresources := isStyled_of_mapM hresources fun _ _ => isStyled_resourceNode
  have hmodules := isStyled_of_mapM hmodules fun _ _ => isStyled_moduleNode
  have hdata := isStyled_dataNodes (instances (doc.root.getEntries "data"))
  -- One group after the other, and then the edges of resources and of modules.
  have hgroups := ((((isSound_empty .flowchart styles).groupUnlessEmpty "Resources"
    "🏗️ Resources" hresources).groupUnlessEmpty "DataSources" "📊 Data Sources"
    hdata).groupUnlessEmpty "Variables" "📝 Variables" hvariables).groupUnlessEmpty "Modules"
    "📦 Modules" hmodules
  exact (hgroups.links _).links _

end Terraform

/-! ## Stack templates -/

namespace CloudFormation

theorem isStyled_resourceNode {id : String} {config : Value} {n : Node}
    (h : resourceNode id config = .ok n) : n.IsStyled styles := by
  obtain ⟨type, -, h⟩ := exists_of_bind_eq_ok h
  obtain rfl := Except.ok.inj h
  exact mem_of_mem_classify? (by decide) type

theorem isStyled_parameterNode {name : String} {config : Value} {n : Node}
    (h : parameterNode name config = .ok n) : n.IsStyled styles := by
  obtain ⟨type, -, h⟩ := exists_of_bind_eq_ok h
  obtain rfl := Except.ok.inj h
  exact mem_of_mem_some (by decide)

theorem isSound_draw (h : draw tree = .ok d) : IsSound styles false d := by
  obtain ⟨resources, hresources, h⟩ := exists_of_bind_eq_ok h
  obtain ⟨parameters, hparameters, h⟩ := exists_of_bind_eq_ok h
  obtain rfl := Except.ok.inj h
  have hresources := isStyled_of_mapM hresources fun _ _ => isStyled_resourceNode
  have hparameters := isStyled_of_mapM hparameters fun _ _ => isStyled_parameterNode
  exact (((isSound_empty .graph styles).nodes hresources).nodes hparameters).links _

end CloudFormation

/-! ## Resource manager templates -/

namespace ResourceManager

theorem isStyled_resourceNode {resource : Value} {index : Nat} {n : Node}
    (h : resourceNode resource index = .ok n) : n.IsStyled styles := by
  obtain ⟨type, -, h⟩ := exists_of_bind_eq_ok h
  obtain ⟨name, -, h⟩ := exists_of_bind_eq_ok h
  obtain rfl := Except.ok.inj h
  exact mem_of_mem_classify? (by decide) type

theorem isStyled_placeholder (dependency : String) : (placeholder dependency).IsStyled styles :=
  mem_of_mem_some (by decide)

theorem isSound_draw (h : draw tree = .ok d) : IsSound styles false d := by
  obtain ⟨drawn, hdrawn, h⟩ := exists_of_bind_eq_ok h
  obtain rfl := Except.ok.inj h
  have hresources : ∀ n ∈ drawn.map Prod.fst, n.IsStyled styles := by
    intro n hn
    obtain ⟨pair, hpair, rfl⟩ := List.mem_map.mp hn
    obtain ⟨entry, -, hentry⟩ := exists_mem_of_mapM_eq_ok hdrawn pair hpair
    obtain ⟨node, hnode, hentry⟩ := exists_of_bind_eq_ok hentry
    obtain rfl := Except.ok.inj hentry
    exact isStyled_resourceNode hnode
  have hplaceholders (names : List String) :
      ∀ n ∈ names.map placeholder, n.IsStyled styles := by
    intro n hn
    obtain ⟨dependency, -, rfl⟩ := List.mem_map.mp hn
    exact isStyled_placeholder dependency
  exact (((isSound_empty .flowchart styles).nodes hresources).nodes (hplaceholders _)).links _

end ResourceManager

/-! ## Lists of cloud resources -/

namespace IbmCloud

theorem isStyled_resourceNodes {α : Type} (entries : List (String × String × α)) :
    ∀ n ∈ entries.map fun (name, type, _) => resourceNode name type, n.IsStyled styles := by
  intro n hn
  obtain ⟨entry, -, rfl⟩ := List.mem_map.mp hn
  exact mem_of_mem_classify? (by decide) entry.2.1

theorem isStyled_dataNodes {α : Type} (entries : List (String × String × α)) :
    ∀ n ∈ entries.map fun (name, type, _) => dataNode name type, n.IsStyled styles := by
  intro n hn
  obtain ⟨entry, -, rfl⟩ := List.mem_map.mp hn
  exact mem_of_mem_some (by decide)

theorem isSound_draw (h : draw tree = .ok d) : IsSound styles false d := by
  obtain ⟨resources, -, h⟩ := exists_of_bind_eq_ok h
  obtain ⟨dataSources, -, h⟩ := exists_of_bind_eq_ok h
  obtain rfl := Except.ok.inj h
  have hresources := isStyled_resourceNodes resources
  have hdata := isStyled_dataNodes dataSources
  exact (((isSound_empty .graph styles).nodes hresources).nodes hdata).links _

end IbmCloud

/-! ## Documents -/

/-- A diagram of a document is drawn in the way of its format. -/
theorem drawn?_of_draw_eq_ok {doc : Document} (h : draw doc = .ok d) :
    drawn? doc = some (.ok d) := by
  unfold draw at h
  split at h
  · cases h
  · cases h
  · next hdrawn => rw [hdrawn, Except.ok.inj h]

/-- Whatever is drawn is sound, with a palette that is not empty. -/
theorem isSound_of_draw_eq_ok {doc : Document} (h : draw doc = .ok d) :
    ∃ palette, palette ≠ [] ∧ IsSound palette false d := by
  have hdrawn := drawn?_of_draw_eq_ok h
  unfold drawn? at hdrawn
  split at hdrawn
  · exact ⟨_, by decide, Compose.isSound_draw (Option.some.inj hdrawn)⟩
  · exact ⟨_, by decide, Kubernetes.isSound_draw (Option.some.inj hdrawn)⟩
  · exact ⟨_, by decide, Terraform.isSound_draw (Option.some.inj hdrawn)⟩
  · exact ⟨_, by decide, CloudFormation.isSound_draw (Option.some.inj hdrawn)⟩
  · exact ⟨_, by decide, ResourceManager.isSound_draw (Option.some.inj hdrawn)⟩
  · exact ⟨_, by decide, IbmCloud.isSound_draw (Option.some.inj hdrawn)⟩
  · cases hdrawn

/-- Whatever is drawn has all its styles and a markup of the known layout. -/
theorem exists_layout_of_draw_eq_ok {doc : Document} (h : draw doc = .ok d) :
    d.render = .ok d.markup ∧
      ∃ layout, Text.splitAtChar '\n' d.markup.toList = layout.lines d.kind ++ [[]] ∧
        IsLaidOut d layout := by
  obtain ⟨palette, hpalette, hsound⟩ := isSound_of_draw_eq_ok h
  exact ⟨hsound.render_eq_ok, hsound.exists_layout hpalette⟩

/-- A bucket that depends on a table, with quotes in a name and one that is reserved. -/
def reservedNames : Document where
  format := .cloudFormation
  tree := [("Resources", .map [
    ("end", .map [("Type", .str "AWS::S3::Bucket"), ("DependsOn", .str "say \"hi\"")]),
    ("say \"hi\"", .map [("Type", .str "AWS::DynamoDB::Table")])])]

theorem exists_layout_reservedNames : ∃ d, draw reservedNames = .ok d ∧
    d.nodeIds = ["n_end", "say_hi"] ∧ d.edgeCount = 1 ∧
      ∃ layout, Text.splitAtChar '\n' d.markup.toList = layout.lines d.kind ++ [[]] ∧
        IsLaidOut d layout := by
  have hdraw : ∃ d, draw reservedNames = .ok d ∧ d.nodeIds = ["n_end", "say_hi"] ∧
      d.edgeCount = 1 := ⟨_, rfl, by decide +kernel, by decide +kernel⟩
  obtain ⟨d, hd, hids, hedges⟩ := hdraw
  exact ⟨d, hd, hids, hedges, (exists_layout_of_draw_eq_ok hd).2⟩

end Schematic.Drawing
