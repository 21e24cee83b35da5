import Mathlib.Algebra.GroupWithZero.Nat
import Schematic.Proofs.Diagram.Reading
import Schematic.Proofs.Drawing.Declared
import Schematic.Proofs.Drawing.Sound

/-!
# Nodes of documents

Every entity of a document has exactly one node: none is left out, and none is drawn twice, however
many of them share a name. Kinds of entities stand one after the other, and within its kind an
entity stands where the document has it. Manifests go by their namespaces first, as these are the
groups of their diagram.

## Main definitions

- `nodeNames` — the names of the nodes of a document, in the order of drawing
- `entityCount` — how many entities a document has

## Main statements

- `Kubernetes.perm_grouped` — grouping loses no manifest
- `nodeIdsOf_markup` — the lines of nodes in a markup are those of the entities
-/

namespace Schematic.Drawing

open Diagram

variable {tree : Value} {d : Diagram} {names : List String}

/-! ## Compositions -/

namespace Compose

/-- The names of the nodes: the services, the networks and the volumes. -/
def nodeNames (tree : Value) : List String :=
  (tree.getEntries "services").keys ++
    (tree.getEntries "networks").keys.map ("network_" ++ ·) ++
    (tree.getEntries "volumes").keys.map ("volume_" ++ ·)

def entityCount (tree : Value) : Nat :=
  (tree.getEntries "services").length + (tree.getEntries "networks").length +
    (tree.getEntries "volumes").length

theorem length_nodeNames (tree : Value) : (nodeNames tree).length = entityCount tree := by
  simp [nodeNames, entityCount, Entries.keys, Nat.add_assoc]

theorem id_of_serviceNode {name : String} {config : Value} {n : Node}
    (h : serviceNode name config = .ok n) : n.id = name := by
  obtain ⟨image, -, h⟩ := exists_of_bind_eq_ok h
  obtain ⟨label, -, h⟩ := exists_of_bind_eq_ok h
  exact Except.ok.inj h ▸ rfl

theorem id_of_networkNode {name : String} {config : Value} {n : Node}
    (h : networkNode name config = .ok n) : n.id = "network_" ++ name := by
  obtain ⟨driver, -, h⟩ := exists_of_bind_eq_ok h
  exact Except.ok.inj h ▸ rfl

theorem id_of_volumeNode {name : String} {config : Value} {n : Node}
    (h : volumeNode name config = .ok n) : n.id = "volume_" ++ name := by
  obtain ⟨driver, -, h⟩ := exists_of_bind_eq_ok h
  exact Except.ok.inj h ▸ rfl

theorem nodeIds_draw (h : draw tree = .ok d) : d.nodeIds = (nodeNames tree).map identifier := by
  obtain ⟨services, hservices, h⟩ := exists_of_bind_eq_ok h
  obtain ⟨networks, hnetworks, h⟩ := exists_of_bind_eq_ok h
  obtain ⟨volumes, hvolumes, h⟩ := exists_of_bind_eq_ok h
  have hservices : services.map (fun n => identifier n.id) =
      (tree.getEntries "services").map fun e => identifier e.1 :=
    map_eq_map_of_mapM_eq_ok hservices fun _ _ hn => congrArg identifier (id_of_serviceNode hn)
  have hnetworks : networks.map (fun n => identifier n.id) =
      (tree.getEntries "networks").map fun e => identifier ("network_" ++ e.1) :=
    map_eq_map_of_mapM_eq_ok hnetworks fun _ _ hn => congrArg identifier (id_of_networkNode hn)
  have hvolumes : volumes.map (fun n => identifier n.id) =
      (tree.getEntries "volumes").map fun e => identifier ("volume_" ++ e.1) :=
    map_eq_map_of_mapM_eq_ok hvolumes fun _ _ hn => congrArg identifier (id_of_volumeNode hn)
  simp only at h
  -- Mounts are edges, so it does not matter whether they are read.
  split at h
  all_goals
    obtain ⟨mountLinks, -, h⟩ := exists_of_bind_eq_ok h
    obtain rfl := Except.ok.inj h
    simp [nodeNames, Entries.keys, hservices, hnetworks, hvolumes, Function.comp_def]

end Compose

/-! ## Cluster manifests -/

namespace Kubernetes

/-- The resources by their namespaces. -/
def grouped (rs : List Resource) : List Resource :=
  (namespaces rs).flatMap (members rs)

/-- The names of the nodes: the manifests by their namespaces. -/
def nodeNames (documents : List Value) : Except NumberError (List String) := do
  let rs ← resources documents
  return (grouped rs).map Resource.nodeName

def entityCount (documents : List Value) : Nat :=
  documents.countP Value.isMap

/-- Sorting elements by keys that all of them have one of is a permutation. -/
theorem perm_flatMap_filter {α β : Type} [BEq β] [LawfulBEq β] {key : α → β} {keys : List β}
    (hkeys : keys.Nodup) {xs : List α} (hxs : ∀ x ∈ xs, key x ∈ keys) :
    (keys.flatMap fun k => xs.filter fun x => key x == k).Perm xs := by
  induction keys generalizing xs with
  | nil =>
    cases xs with
    | nil => exact .nil
    | cons x xs => cases hxs x List.mem_cons_self
  | cons k keys ih =>
    obtain ⟨hk, hkeys⟩ := List.nodup_cons.mp hkeys
    have hothers : (keys.flatMap fun k => xs.filter fun x => key x == k) =
        keys.flatMap fun k' => (xs.filter fun x => !(key x == k)).filter fun x => key x == k' := by
      rw [List.flatMap_def, List.flatMap_def]
      refine congrArg List.flatten (List.map_congr_left fun k' hk' => ?_)
      rw [List.filter_filter]
      refine List.filter_congr fun x _ => ?_
      -- An element with a later key does not have the first one.
      by_cases hx : key x = k'
      · have hne : key x ≠ k := fun h => hk (h ▸ hx ▸ hk')
        simp [hx, hx ▸ hne]
      · simp [hx]
    rw [List.flatMap_cons, hothers]
    refine .trans (.append_left _ (ih hkeys ?_)) (List.filter_append_perm _ xs)
    intro x hx
    obtain ⟨hmem, hne⟩ := List.mem_filter.mp hx
    rcases List.mem_cons.mp (hxs x hmem) with heq | hkey
    · simp [heq] at hne
    · exact hkey

/-- Grouping loses no resource and adds none. -/
theorem perm_grouped (rs : List Resource) : (grouped rs).Perm rs := by
  apply perm_flatMap_filter (Text.nodup_distinct _)
  intro r hr
  exact Text.mem_distinct.mpr (List.mem_map_of_mem hr)

theorem length_nodeNames {documents : List Value} (h : nodeNames documents = .ok names) :
    names.length = entityCount documents := by
  obtain ⟨rs, hrs, h⟩ := exists_of_bind_eq_ok h
  obtain rfl := Except.ok.inj h
  have hindices : documents.countP Value.isMap =
      documents.zipIdx.countP (Value.isMap ∘ Prod.fst) := by
    rw [← List.countP_map, List.zipIdx_map_fst]
  rw [List.length_map, (perm_grouped rs).length_eq, length_of_mapM_eq_ok hrs, entityCount, hindices,
    List.countP_eq_length_filter]
  rfl

theorem id_of_node {r : Resource} {n : Node} (h : node r = .ok n) : n.id = r.nodeName := by
  obtain ⟨lines, -, h⟩ := exists_of_bind_eq_ok h
  exact Except.ok.inj h ▸ rfl

/-- The nodes of groups that are drawn one after the other. -/
theorem nodeIds_groups (d : Diagram) (groups : List (String × List Node)) :
    (groups.foldl (fun d (space, nodes) =>
      d.group ("NS_" ++ space) ("🏠 Namespace: " ++ space) nodes) d).nodeIds =
      d.nodeIds ++ groups.flatMap fun g => g.2.map fun n => identifier n.id := by
  induction groups generalizing d with
  | nil => simp
  | cons g groups ih => rw [List.foldl_cons, ih]; simp

theorem nodeIds_draw {documents : List Value} (h : draw documents = .ok d) :
    ∃ names, nodeNames documents = .ok names ∧ d.nodeIds = names.map identifier := by
  obtain ⟨rs, hrs, h⟩ := exists_of_bind_eq_ok h
  obtain ⟨groups, hgroups, h⟩ := exists_of_bind_eq_ok h
  obtain ⟨edges, -, h⟩ := exists_of_bind_eq_ok h
  obtain rfl := Except.ok.inj h
  have hnames : groups.map (fun g => g.2.map fun n => identifier n.id) =
      (namespaces rs).map fun space => (members rs space).map fun r => identifier r.nodeName := by
    refine map_eq_map_of_mapM_eq_ok hgroups fun space group hgroup => ?_
    obtain ⟨nodes, hnodes, hgroup⟩ := exists_of_bind_eq_ok hgroup
    obtain rfl := Except.ok.inj hgroup
    exact map_eq_map_of_mapM_eq_ok hnodes fun _ _ hn => congrArg identifier (id_of_node hn)
  refine ⟨(grouped rs).map Resource.nodeName, bind_eq_ok hrs rfl, ?_⟩
  rw [nodeIds_links, nodeIds_groups, nodeIds_empty, List.nil_append, List.flatMap_def, hnames]
  simp [grouped, List.flatMap_def, List.map_flatten, Function.comp_def]

end Kubernetes

/-! ## Configurations of resources -/

namespace Terraform

/-- The names of the nodes: the resources, the data sources, the variables and the modules. -/
def nodeNames (tree : Value) : List String :=
  (parts tree).map Part.rawId

/-- How many blocks the types of a section have. -/
def sectionCount (sections : Entries Value) : Nat :=
  (sections.map fun (_, named) => named.entries.length).sum

def entityCount (tree : Value) : Nat :=
  sectionCount (tree.getEntries "resource") + sectionCount (tree.getEntries "data") +
    (tree.getEntries "variable").length + (tree.getEntries "module").length

theorem length_instances (sections : Entries Value) :
    (instances sections).length = sectionCount sections := by
  rw [instances, sectionCount, List.length_flatMap]
  simp

theorem length_nodeNames (tree : Value) : (nodeNames tree).length = entityCount tree := by
  simp [nodeNames, parts, entityCount, length_instances, Nat.add_assoc]

end Terraform

/-! ## Stack templates -/

namespace CloudFormation

/-- The names of the nodes: the resources that are mappings, and the parameters. -/
def nodeNames (tree : Value) : List String :=
  (resources tree).keys ++ (tree.getEntries "Parameters").keys.map ("param_" ++ ·)

def entityCount (tree : Value) : Nat :=
  (tree.getEntries "Resources").countP (fun (_, config) => config.isMap) +
    (tree.getEntries "Parameters").length

theorem length_nodeNames (tree : Value) : (nodeNames tree).length = entityCount tree := by
  simp [nodeNames, entityCount, resources, Entries.keys, List.countP_eq_length_filter]

theorem id_of_resourceNode {id : String} {config : Value} {n : Node}
    (h : resourceNode id config = .ok n) : n.id = id := by
  obtain ⟨type, -, h⟩ := exists_of_bind_eq_ok h
  exact Except.ok.inj h ▸ rfl

theorem id_of_parameterNode {name : String} {config : Value} {n : Node}
    (h : parameterNode name config = .ok n) : n.id = "param_" ++ name := by
  obtain ⟨type, -, h⟩ := exists_of_bind_eq_ok h
  exact Except.ok.inj h ▸ rfl

theorem nodeIds_draw (h : draw tree = .ok d) : d.nodeIds = (nodeNames tree).map identifier := by
  obtain ⟨declared, hdeclared, h⟩ := exists_of_bind_eq_ok h
  obtain ⟨parameters, hparameters, h⟩ := exists_of_bind_eq_ok h
  obtain rfl := Except.ok.inj h
  have hdeclared : declared.map (fun n => identifier n.id) =
      (resources tree).map fun e => identifier e.1 :=
    map_eq_map_of_mapM_eq_ok hdeclared fun _ _ hn => congrArg identifier (id_of_resourceNode hn)
  have hparameters : parameters.map (fun n => identifier n.id) =
      (tree.getEntries "Parameters").map fun e => identifier ("param_" ++ e.1) :=
    map_eq_map_of_mapM_eq_ok hparameters fun _ _ hn => congrArg identifier (id_of_parameterNode hn)
  simp [nodeNames, Entries.keys, hdeclared, hparameters, Function.comp_def]

end CloudFormation

/-! ## Resource manager templates -/

namespace ResourceManager

/-- The name of the node of a resource. -/
def resourceName (resource : Value) (index : Nat) : Except NumberError String := do
  let type ← resource.nameOr "type" "Unknown"
  let name ← resource.nameOr "name" s!"resource_{index}"
  return s!"{type}_{name}_{index}"

/-- The distinct expressions that the resources depend on. -/
def distinctDependencies (tree : Value) : List String :=
  (((tree.getListed "resources").filter Value.isMap).flatMap dependencies).eraseDups

/-- The names of the nodes: the resources, and a placeholder for each dependency. -/
def nodeNames (tree : Value) : Except NumberError (List String) := do
  let declared ← (resources tree).mapM fun (resource, index) => resourceName resource index
  return declared ++ (distinctDependencies tree).map placeholderId

def entityCount (tree : Value) : Nat :=
  (tree.getListed "resources").countP Value.isMap + (distinctDependencies tree).length

/-- Without their indexes, the resources are the mappings of the list. -/
theorem map_fst_resources (tree : Value) :
    (resources tree).map Prod.fst = (tree.getListed "resources").filter Value.isMap := by
  rw [resources, ← List.zipIdx_map_fst 0 (tree.getListed "resources"), List.filter_map,
    List.zipIdx_map_fst]
  rfl

theorem length_nodeNames (h : nodeNames tree = .ok names) : names.length = entityCount tree := by
  obtain ⟨declared, hdeclared, h⟩ := exists_of_bind_eq_ok h
  obtain rfl := Except.ok.inj h
  have hlength := congrArg List.length (map_fst_resources tree)
  rw [List.length_map] at hlength
  rw [List.length_append, List.length_map, length_of_mapM_eq_ok hdeclared, hlength, entityCount,
    List.countP_eq_length_filter]

theorem resourceName_eq_ok {resource : Value} {index : Nat} {n : Node}
    (h : resourceNode resource index = .ok n) : resourceName resource index = .ok n.id := by
  obtain ⟨type, htype, h⟩ := exists_of_bind_eq_ok h
  obtain ⟨name, hname, h⟩ := exists_of_bind_eq_ok h
  obtain rfl := Except.ok.inj h
  exact bind_eq_ok htype (bind_eq_ok hname rfl)

/-- The resources are drawn together with what they depend on, and these have the names. -/
theorem exists_of_draw_eq_ok (h : draw tree = .ok d) : ∃ drawn : List (Node × List String),
    nodeNames tree = .ok (drawn.map (fun e => e.1.id) ++
      (Text.distinct (drawn.flatMap Prod.snd)).map placeholderId) ∧
    d = (((Diagram.empty .flowchart styles).nodes (drawn.map Prod.fst)).nodes
      ((Text.distinct (drawn.flatMap Prod.snd)).map placeholder)).links
        (drawn.flatMap fun (node, dependencies) => dependencies.map fun dependency =>
          { source := placeholderId dependency, target := node.id }) := by
  obtain ⟨drawn, hdrawn, h⟩ := exists_of_bind_eq_ok h
  have hdeclared : ((resources tree).mapM fun (resource, index) => resourceName resource index) =
      .ok (drawn.map fun e => e.1.id) := by
    refine mapM_eq_ok_map hdrawn fun e pair hpair => ?_
    obtain ⟨n, hn, hpair⟩ := exists_of_bind_eq_ok hpair
    obtain rfl := Except.ok.inj hpair
    exact resourceName_eq_ok hn
  have hdependencies : drawn.map Prod.snd = (resources tree).map fun e => dependencies e.1 := by
    refine map_eq_map_of_mapM_eq_ok hdrawn fun e pair hpair => ?_
    obtain ⟨n, -, hpair⟩ := exists_of_bind_eq_ok hpair
    exact Except.ok.inj hpair ▸ rfl
  have hdistinct : Text.distinct (drawn.flatMap Prod.snd) = distinctDependencies tree := by
    rw [Text.distinct_eq_eraseDups, List.flatMap_def, hdependencies, distinctDependencies,
      ← map_fst_resources, List.flatMap_def, List.map_map]
    rfl
  refine ⟨drawn, ?_, (Except.ok.inj h).symm⟩
  rw [hdistinct]
  exact bind_eq_ok hdeclared rfl

theorem nodeIds_draw (h : draw tree = .ok d) :
    ∃ names, nodeNames tree = .ok names ∧ d.nodeIds = names.map identifier := by
  obtain ⟨drawn, hnames, rfl⟩ := exists_of_draw_eq_ok h
  refine ⟨_, hnames, ?_⟩
  simp [placeholder, Function.comp_def]

end ResourceManager

/-! ## Lists of cloud resources -/

namespace IbmCloud

/-- A text that is there and not empty. -/
def holdsText : Except NumberError String → Bool
  | .ok text => text != ""
  | .error _ => false

/-- An entry with a name and a type. -/
def hasIdentity (entry : Value) : Bool :=
  holdsText (entry.getText "name") && holdsText (entry.getText "type")

/-- The names of the nodes: the resources and the data sources that have a name and a type. -/
def nodeNames (tree : Value) : Except NumberError (List String) := do
  let resources ← identified (tree.getListed "resources")
  let dataSources ← identified (tree.getListed "data_sources")
  return resources.map Prod.fst ++ dataSources.map fun (name, _) => "data_" ++ name

def entityCount (tree : Value) : Nat :=
  (tree.getListed "resources").countP hasIdentity +
    (tree.getListed "data_sources").countP hasIdentity

theorem isSome_of_identity? {entry : Value} {identity : Option (String × String)}
    (h : identity? entry = .ok identity) : identity.isSome = hasIdentity entry := by
  obtain ⟨name, hname, h⟩ := exists_of_bind_eq_ok h
  obtain ⟨type, htype, h⟩ := exists_of_bind_eq_ok h
  obtain rfl := Except.ok.inj h
  rw [hasIdentity, hname, htype]
  by_cases hn : name = "" <;> by_cases ht : type = "" <;> simp [holdsText, hn, ht]

theorem length_identified {entries : List Value} {found : List (String × String × Value)}
    (h : identified entries = .ok found) : found.length = entries.countP hasIdentity := by
  obtain ⟨all, hall, h⟩ := exists_of_bind_eq_ok h
  obtain rfl := Except.ok.inj h
  have hsome : all.map (fun e => e.1.isSome) = entries.map hasIdentity := by
    refine map_eq_map_of_mapM_eq_ok hall fun entry e he => ?_
    obtain ⟨identity, hidentity, he⟩ := exists_of_bind_eq_ok he
    obtain rfl := Except.ok.inj he
    exact isSome_of_identity? hidentity
  have hcount := congrArg (List.countP id) hsome
  rw [List.countP_map, List.countP_map] at hcount
  rw [List.length_filterMap_eq_countP]
  simpa [Function.comp_def] using hcount

theorem length_nodeNames (h : nodeNames tree = .ok names) : names.length = entityCount tree := by
  obtain ⟨resources, hresources, h⟩ := exists_of_bind_eq_ok h
  obtain ⟨dataSources, hdata, h⟩ := exists_of_bind_eq_ok h
  obtain rfl := Except.ok.inj h
  rw [List.length_append, List.length_map, List.length_map, length_identified hresources,
    length_identified hdata, entityCount]

theorem nodeIds_draw (h : draw tree = .ok d) :
    ∃ names, nodeNames tree = .ok names ∧ d.nodeIds = names.map identifier := by
  obtain ⟨resources, hresources, h⟩ := exists_of_bind_eq_ok h
  obtain ⟨dataSources, hdata, h⟩ := exists_of_bind_eq_ok h
  obtain rfl := Except.ok.inj h
  refine ⟨_, bind_eq_ok hresources (bind_eq_ok hdata rfl), ?_⟩
  simp [resourceNode, dataNode, Function.comp_def]

end IbmCloud

/-! ## Documents -/

/-- The names of the nodes of a document, kind after kind. -/
def nodeNames (doc : Document) : Except NumberError (List String) :=
  match doc.format with
  | .compose => .ok (Compose.nodeNames doc.root)
  | .kubernetes => Kubernetes.nodeNames (manifests doc)
  | .terraform => .ok (Terraform.nodeNames doc.root)
  | .cloudFormation => .ok (CloudFormation.nodeNames doc.root)
  | .resourceManager => ResourceManager.nodeNames doc.root
  | .ibmCloud => IbmCloud.nodeNames doc.root
  | .unknown => .ok []

/-- How many entities a document has. -/
def entityCount (doc : Document) : Nat :=
  match doc.format with
  | .compose => Compose.entityCount doc.root
  | .kubernetes => Kubernetes.entityCount (manifests doc)
  | .terraform => Terraform.entityCount doc.root
  | .cloudFormation => CloudFormation.entityCount doc.root
  | .resourceManager => ResourceManager.entityCount doc.root
  | .ibmCloud => IbmCloud.entityCount doc.root
  | .unknown => 0

theorem length_of_nodeNames_eq_ok {doc : Document} (h : nodeNames doc = .ok names) :
    names.length = entityCount doc := by
  unfold nodeNames at h
  unfold entityCount
  cases hformat : doc.format <;> rw [hformat] at h
  case compose => exact Except.ok.inj h ▸ Compose.length_nodeNames doc.root
  case kubernetes => exact Kubernetes.length_nodeNames h
  case terraform => exact Except.ok.inj h ▸ Terraform.length_nodeNames doc.root
  case cloudFormation => exact Except.ok.inj h ▸ CloudFormation.length_nodeNames doc.root
  case resourceManager => exact ResourceManager.length_nodeNames h
  case ibmCloud => exact IbmCloud.length_nodeNames h
  case unknown => exact Except.ok.inj h ▸ rfl

/-- The nodes of a diagram have the names of the entities. -/
theorem nodeIds_of_draw_eq_ok {doc : Document} (h : draw doc = .ok d) :
    ∃ names, nodeNames doc = .ok names ∧ d.nodeIds = names.map identifier := by
  have hdrawn := drawn?_of_draw_eq_ok h
  unfold drawn? at hdrawn
  unfold nodeNames
  cases hformat : doc.format <;> rw [hformat] at hdrawn
  case compose => exact ⟨_, rfl, Compose.nodeIds_draw (Option.some.inj hdrawn)⟩
  case kubernetes => exact Kubernetes.nodeIds_draw (Option.some.inj hdrawn)
  case terraform =>
    refine ⟨_, rfl, ?_⟩
    rw [Terraform.nodeIds_draw (Option.some.inj hdrawn), Terraform.nodeNames, List.map_map]
    rfl
  case cloudFormation => exact ⟨_, rfl, CloudFormation.nodeIds_draw (Option.some.inj hdrawn)⟩
  case resourceManager => exact ResourceManager.nodeIds_draw (Option.some.inj hdrawn)
  case ibmCloud => exact IbmCloud.nodeIds_draw (Option.some.inj hdrawn)
  case unknown => cases hdrawn

/-- The identifiers of a diagram stand on the lines of nodes in its markup. -/
theorem nodeIdsOf_splitAtChar {doc : Document} (h : draw doc = .ok d) :
    nodeIdsOf (Text.splitAtChar '\n' d.markup.toList) = d.nodeIds := by
  obtain ⟨palette, -, hsound⟩ := isSound_of_draw_eq_ok h
  exact hsound.isLegible.nodeIdsOf_splitAtChar

/-- As many nodes are drawn as there are entities, and the lines of nodes in the markup are those
of the entities, one each and in their order. -/
theorem nodeIdsOf_markup {doc : Document} (h : draw doc = .ok d) :
    d.render = .ok d.markup ∧ d.nodeCount = entityCount doc ∧
      ∃ names, nodeNames doc = .ok names ∧ names.length = entityCount doc ∧
        nodeIdsOf (Text.splitAtChar '\n' d.markup.toList) = names.map identifier := by
  obtain ⟨palette, -, hsound⟩ := isSound_of_draw_eq_ok h
  obtain ⟨names, hnames, hids⟩ := nodeIds_of_draw_eq_ok h
  have hlength := length_of_nodeNames_eq_ok hnames
  refine ⟨hsound.render_eq_ok, ?_, names, hnames, hlength, ?_⟩
  · rw [nodeCount, hids, List.length_map, hlength]
  · rw [nodeIdsOf_splitAtChar h, hids]

/-- Three settings in two namespaces, the first one of them taken up again. -/
def mixedNamespaces : Document where
  format := .kubernetes
  isMultiDocument := true
  documents := [setting "first" "shop", setting "second" "office", setting "third" "shop"]
where
  setting (name space : String) : Value := .map [("kind", .str "ConfigMap"),
    ("metadata", .map [("name", .str name), ("namespace", .str space)])]

theorem nodeIdsOf_markup_mixedNamespaces : ∃ d, draw mixedNamespaces = .ok d ∧
    d.nodeCount = 3 ∧ nodeIdsOf (Text.splitAtChar '\n' d.markup.toList) =
      ["ConfigMap_first_shop", "ConfigMap_third_shop", "ConfigMap_second_office"] := by
  obtain ⟨d, hd⟩ : ∃ d, draw mixedNamespaces = .ok d := ⟨_, rfl⟩
  obtain ⟨-, hcount, names, hnames, -, hids⟩ := nodeIdsOf_markup hd
  obtain rfl := Except.ok.inj hnames
  refine ⟨d, hd, hcount.trans (by decide), hids.trans ?_⟩
  decide +kernel

/-- The nodes do not stand in the order of the manifests if their namespaces do not. -/
theorem not_nodeIdsOf_markup_in_order : ∃ d rs, draw mixedNamespaces = .ok d ∧
    Kubernetes.resources (manifests mixedNamespaces) = .ok rs ∧
    nodeIdsOf (Text.splitAtChar '\n' d.markup.toList) ≠
      rs.map fun r => identifier r.nodeName := by
  obtain ⟨d, hd, hids⟩ : ∃ d, draw mixedNamespaces = .ok d ∧ d.nodeIds =
      ["ConfigMap_first_shop", "ConfigMap_third_shop", "ConfigMap_second_office"] :=
    ⟨_, rfl, by decide +kernel⟩
  refine ⟨d, _, hd, rfl, ?_⟩
  rw [nodeIdsOf_splitAtChar hd, hids]
  decide +kernel

end Schematic.Drawing
