import Schematic.Proofs.Drawing.Nodes

/-!
# Closed documents

A document is closed if whatever its entities refer to is declared in it. The edges of a closed
document lead from nodes to nodes: a node and the edges that are about it are drawn from different
places of the document, but from the same name, and hence with the same identifier. Manifests and
resource manager templates are always closed, as their edges are drawn only to what is there, or
to placeholders that are declared for them.

## Main definitions

- `IsClosed` — a document that refers to its own entities only
- `Joins` — an edge between the nodes of two of some names

## Main statements

- `joins_draw` in each format — the edges join names of nodes
- `endpoints_mem_nodeIds` — the edges of a closed document lead from nodes to nodes
-/

namespace Schematic.Drawing

open Diagram

variable {tree : Value} {d : Diagram} {names : List String} {e : Edge}

/-- An edge between the nodes of two of some names. -/
def Joins (names : List String) (e : Edge) : Prop :=
  ∃ source ∈ names, ∃ target ∈ names, e.source = identifier source ∧ e.target = identifier target

theorem joins_drawn {l : Link} (hsource : l.source ∈ names) (htarget : l.target ∈ names) :
    Joins names l.drawn :=
  ⟨l.source, hsource, l.target, htarget, rfl, rfl⟩

/-! ## Compositions -/

namespace Compose

/-- The services refer to services, networks and volumes of the composition. -/
structure IsClosed (tree : Value) : Prop where
  dependencies : ∀ service ∈ tree.getEntries "services",
    ∀ name ∈ (service.2.get "depends_on").names, name ∈ (tree.getEntries "services").keys
  networks : ∀ service ∈ tree.getEntries "services",
    ∀ name ∈ (service.2.get "networks").names, name ∈ (tree.getEntries "networks").keys
  volumes : ∀ service ∈ tree.getEntries "services", ∀ mount ∈ (service.2.get "volumes").items,
    ∀ name, namedVolume? mount = .ok (some name) → name ∈ (tree.getEntries "volumes").keys

/-- The edges of a diagram are drawn for the services. -/
theorem exists_link_of_mem_edges (h : draw tree = .ok d) (he : e ∈ d.edges) :
    ∃ service ∈ tree.getEntries "services", ∃ l : Link, l.drawn = e ∧
      (l ∈ dependencies service.1 service.2 ∨ l ∈ connections service.1 service.2 ∨
        ∃ ls, mounts service.1 service.2 = .ok ls ∧ l ∈ ls) := by
  obtain ⟨services, -, h⟩ := exists_of_bind_eq_ok h
  obtain ⟨networks, -, h⟩ := exists_of_bind_eq_ok h
  obtain ⟨volumes, -, h⟩ := exists_of_bind_eq_ok h
  -- The links of mounts are those of the services, or there are none.
  obtain ⟨mountLinks, hmounts, rfl⟩ : ∃ mountLinks : List (List Link),
      (∀ ls ∈ mountLinks, ∃ service ∈ tree.getEntries "services",
        mounts service.1 service.2 = .ok ls) ∧
      d = ((((((Diagram.empty .flowchart styles).group "Services" "🚀 Services"
        services).groupUnlessEmpty "Networks" "🌐 Networks" networks).groupUnlessEmpty "Volumes"
        "💾 Volumes" volumes).links ((tree.getEntries "services").flatMap fun service =>
          dependencies service.1 service.2)).links
            (if (tree.getEntries "networks").isEmpty then [] else
              (tree.getEntries "services").flatMap fun service =>
                connections service.1 service.2)).links mountLinks.flatten := by
    simp only at h
    split at h
    · obtain ⟨mountLinks, hmounts, h⟩ := exists_of_bind_eq_ok h
      refine ⟨mountLinks, fun ls hls => ?_, (Except.ok.inj h).symm⟩
      obtain rfl := Except.ok.inj hmounts
      cases hls
    · obtain ⟨mountLinks, hmounts, h⟩ := exists_of_bind_eq_ok h
      exact ⟨mountLinks, exists_mem_of_mapM_eq_ok hmounts, (Except.ok.inj h).symm⟩
  simp only [mem_edges_links, edges_groupUnlessEmpty, edges_group, edges_empty, List.not_mem_nil,
    false_or, List.mem_map] at he
  rcases he with (⟨l, hl, rfl⟩ | ⟨l, hl, rfl⟩) | ⟨l, hl, rfl⟩
  · obtain ⟨service, hservice, hl⟩ := List.mem_flatMap.mp hl
    exact ⟨service, hservice, l, rfl, .inl hl⟩
  · split at hl
    · cases hl
    · obtain ⟨service, hservice, hl⟩ := List.mem_flatMap.mp hl
      exact ⟨service, hservice, l, rfl, .inr (.inl hl)⟩
  · obtain ⟨ls, hls, hl⟩ := List.mem_flatten.mp hl
    obtain ⟨service, hservice, hread⟩ := hmounts ls hls
    exact ⟨service, hservice, l, rfl, .inr (.inr ⟨ls, hread, hl⟩)⟩

theorem joins_draw (h : draw tree = .ok d) (hclosed : IsClosed tree) (he : e ∈ d.edges) :
    Joins (nodeNames tree) e := by
  have hservices {name : String} (hname : name ∈ (tree.getEntries "services").keys) :
      name ∈ nodeNames tree :=
    List.mem_append_left _ (List.mem_append_left _ hname)
  have hnetworks {name : String} (hname : name ∈ (tree.getEntries "networks").keys) :
      "network_" ++ name ∈ nodeNames tree :=
    List.mem_append_left _ (List.mem_append_right _ (List.mem_map_of_mem hname))
  have hvolumes {name : String} (hname : name ∈ (tree.getEntries "volumes").keys) :
      "volume_" ++ name ∈ nodeNames tree :=
    List.mem_append_right _ (List.mem_map_of_mem hname)
  obtain ⟨service, hservice, l, rfl, hl⟩ := exists_link_of_mem_edges h he
  have hname : service.1 ∈ nodeNames tree := hservices (List.mem_map_of_mem hservice)
  rcases hl with hl | hl | ⟨ls, hread, hl⟩
  · obtain ⟨name, hdependency, rfl⟩ := List.mem_map.mp hl
    exact joins_drawn (hservices (hclosed.dependencies service hservice name hdependency)) hname
  · obtain ⟨name, hnetwork, rfl⟩ := List.mem_map.mp hl
    exact joins_drawn hname (hnetworks (hclosed.networks service hservice name hnetwork))
  · obtain ⟨volumes, hmounts, hread⟩ := exists_of_bind_eq_ok hread
    obtain rfl := Except.ok.inj hread
    obtain ⟨name, hmem, rfl⟩ := List.mem_map.mp hl
    obtain ⟨volume, hvolume, hsome⟩ := List.mem_filterMap.mp hmem
    obtain ⟨rfl, -⟩ := Option.filter_eq_some_iff.mp hsome
    obtain ⟨mount, hmount, hnamed⟩ := exists_mem_of_mapM_eq_ok hmounts _ hvolume
    have hdeclared := hclosed.volumes service hservice mount hmount name hnamed
    exact joins_drawn (hvolumes hdeclared) hname

end Compose

/-! ## Cluster manifests -/

namespace Kubernetes

theorem mem_of_mem_members {rs : List Resource} {space : String} {r : Resource}
    (h : r ∈ members rs space) : r ∈ rs :=
  (List.mem_filter.mp h).1

/-- The edges from a resource lead from it to resources of its namespace. -/
theorem exists_of_mem_links {rs : List Resource} {r : Resource} {ls : List Link}
    (h : links rs r = .ok ls) : ∀ l ∈ ls, l.source = r.nodeName ∧
      ∃ peer ∈ rs, l.target = peer.nodeName := by
  intro l hl
  unfold links at h
  simp only at h
  split at h
  · obtain rfl := Except.ok.inj h
    unfold selections at hl
    split at hl
    · cases hl
    · obtain ⟨peer, hpeer, rfl⟩ := List.mem_map.mp hl
      exact ⟨rfl, peer, mem_of_mem_members (List.mem_filter.mp hpeer).1, rfl⟩
  · split at h
    · obtain ⟨names, -, h⟩ := exists_of_bind_eq_ok h
      obtain rfl := Except.ok.inj h
      obtain ⟨name, -, hname⟩ := List.mem_filterMap.mp hl
      obtain ⟨service, hservice, rfl⟩ := Option.map_eq_some_iff.mp hname
      have hpeer := List.mem_reverse.mp (List.mem_of_find?_eq_some hservice)
      exact ⟨rfl, service, mem_of_mem_members (List.mem_filter.mp hpeer).1, rfl⟩
    · obtain rfl := Except.ok.inj h
      cases hl

theorem edges_groups (d : Diagram) (groups : List (String × List Node)) :
    (groups.foldl (fun d (space, nodes) =>
      d.group ("NS_" ++ space) ("🏠 Namespace: " ++ space) nodes) d).edges = d.edges := by
  induction groups generalizing d with
  | nil => rfl
  | cons g groups ih => rw [List.foldl_cons, ih, edges_group]

theorem joins_draw {documents : List Value} (h : draw documents = .ok d)
    (hnames : nodeNames documents = .ok names) (he : e ∈ d.edges) : Joins names e := by
  obtain ⟨rs, hrs, h⟩ := exists_of_bind_eq_ok h
  obtain ⟨groups, -, h⟩ := exists_of_bind_eq_ok h
  obtain ⟨edges, hedges, h⟩ := exists_of_bind_eq_ok h
  obtain rfl := Except.ok.inj h
  obtain rfl := Except.ok.inj (hnames.symm.trans (bind_eq_ok hrs rfl))
  have hdeclared {r : Resource} (hr : r ∈ rs) :
      r.nodeName ∈ (grouped rs).map Resource.nodeName :=
    List.mem_map_of_mem ((perm_grouped rs).mem_iff.mpr hr)
  obtain ⟨l, hl, rfl⟩ := exists_of_mem_edges_links (by simp only [edges_groups, edges_empty]) he
  obtain ⟨ls, hls, hl⟩ := List.mem_flatten.mp hl
  obtain ⟨r, hr, hlinks⟩ := exists_mem_of_mapM_eq_ok hedges ls hls
  obtain ⟨hsource, peer, hpeer, htarget⟩ := exists_of_mem_links hlinks l hl
  apply joins_drawn
  · exact hsource ▸ hdeclared hr
  · exact htarget ▸ hdeclared hpeer

end Kubernetes

/-! ## Configurations of resources -/

namespace Terraform

/-- The resources and modules depend on parts of the configuration, and refer to such. -/
structure IsClosed (tree : Value) : Prop where
  dependencies : ∀ i ∈ instances (tree.getEntries "resource"),
    ∀ address ∈ (i.2.2.get "depends_on").textItems, addressId address ∈ nodeNames tree
  resources : ∀ i ∈ instances (tree.getEntries "resource"),
    ∀ name ∈ references i.2.2.entries, name ∈ nodeNames tree
  modules : ∀ m ∈ tree.getEntries "module",
    ∀ name ∈ references m.2.entries, name ∈ nodeNames tree

theorem resourceId_mem_nodeNames {i : String × String × Value}
    (hi : i ∈ instances (tree.getEntries "resource")) :
    resourceId i.1 i.2.1 ∈ nodeNames tree := by
  apply List.mem_map_of_mem (f := Part.rawId) (a := .resource i.1 i.2.1)
  simp only [parts, List.mem_append, List.mem_map]
  exact .inl (.inl (.inl ⟨i, hi, rfl⟩))

theorem moduleId_mem_nodeNames {m : String × Value} (hm : m ∈ tree.getEntries "module") :
    "module_" ++ m.1 ∈ nodeNames tree := by
  apply List.mem_map_of_mem (f := Part.rawId) (a := .childModule m.1)
  simp only [parts, List.mem_append, List.mem_map]
  exact .inr ⟨m, hm, rfl⟩

/-- References join a part to those that it refers to. -/
theorem joins_referenceLinks {id : String} {config : Value} {l : Link} (hid : id ∈ names)
    (hclosed : ∀ name ∈ references config.entries, name ∈ names)
    (hl : l ∈ referenceLinks id config) : Joins names l.drawn := by
  obtain ⟨target, htarget, rfl⟩ := List.mem_map.mp hl
  exact joins_drawn (hclosed target (List.mem_filter.mp htarget).1) hid

theorem joins_draw {doc : Document} (h : draw doc = .ok d) (hclosed : IsClosed doc.root)
    (he : e ∈ d.edges) : Joins (nodeNames doc.root) e := by
  rcases (mem_edges_draw h).mp he with ⟨i, hi, l, hl, rfl⟩ | ⟨m, hm, l, hl, rfl⟩
  · have hid := resourceId_mem_nodeNames hi
    rcases List.mem_append.mp hl with hl | hl
    · obtain ⟨address, haddress, rfl⟩ := List.mem_map.mp hl
      exact joins_drawn (hclosed.dependencies i hi address haddress) hid
    · exact joins_referenceLinks hid (hclosed.resources i hi) hl
  · exact joins_referenceLinks (moduleId_mem_nodeNames hm) (hclosed.modules m hm) hl

end Terraform

/-! ## Stack templates -/

namespace CloudFormation

/-- The resources depend on resources of the template. -/
def IsClosed (tree : Value) : Prop :=
  ∀ resource ∈ resources tree, ∀ name ∈ (resource.2.get "DependsOn").textItems,
    name ∈ (resources tree).keys

theorem joins_draw (h : draw tree = .ok d) (hclosed : IsClosed tree) (he : e ∈ d.edges) :
    Joins (nodeNames tree) e := by
  obtain ⟨declared, -, h⟩ := exists_of_bind_eq_ok h
  obtain ⟨parameters, -, h⟩ := exists_of_bind_eq_ok h
  obtain rfl := Except.ok.inj h
  have hdeclared {name : String} (hname : name ∈ (resources tree).keys) :
      name ∈ nodeNames tree := List.mem_append_left _ hname
  obtain ⟨l, hl, rfl⟩ := exists_of_mem_edges_links (by simp only [edges_nodes, edges_empty]) he
  obtain ⟨resource, hresource, hl⟩ := List.mem_flatMap.mp hl
  obtain ⟨name, hname, rfl⟩ := List.mem_map.mp hl
  apply joins_drawn
  · exact hdeclared (hclosed resource hresource name hname)
  · exact hdeclared (List.mem_map_of_mem hresource)

end CloudFormation

/-! ## Resource manager templates -/

namespace ResourceManager

theorem joins_draw (h : draw tree = .ok d) (hnames : nodeNames tree = .ok names)
    (he : e ∈ d.edges) : Joins names e := by
  obtain ⟨drawn, hdrawn, rfl⟩ := exists_of_draw_eq_ok h
  obtain rfl := Except.ok.inj (hnames.symm.trans hdrawn)
  obtain ⟨l, hl, rfl⟩ := exists_of_mem_edges_links (by simp only [edges_nodes, edges_empty]) he
  obtain ⟨pair, hpair, hl⟩ := List.mem_flatMap.mp hl
  obtain ⟨dependency, hdependency, rfl⟩ := List.mem_map.mp hl
  apply joins_drawn
  -- Every dependency has its placeholder, of which there is one for equal dependencies.
  · apply List.mem_append_right
    apply List.mem_map_of_mem
    exact Text.mem_distinct.mpr (List.mem_flatMap.mpr ⟨pair, hpair, hdependency⟩)
  · apply List.mem_append_left
    exact List.mem_map_of_mem (f := fun e => e.1.id) hpair

end ResourceManager

/-! ## Lists of cloud resources -/

namespace IbmCloud

/-- The resources refer to resources that are drawn. -/
def IsClosed (tree : Value) : Prop :=
  ∀ drawn, identified (tree.getListed "resources") = .ok drawn →
    ∀ resource ∈ drawn, ∀ name ∈ referredNames (resource.2.2.get "properties"),
      name ∈ drawn.map Prod.fst

theorem joins_draw (h : draw tree = .ok d) (hnames : nodeNames tree = .ok names)
    (hclosed : IsClosed tree) (he : e ∈ d.edges) : Joins names e := by
  obtain ⟨resources, hresources, h⟩ := exists_of_bind_eq_ok h
  obtain ⟨dataSources, hdata, h⟩ := exists_of_bind_eq_ok h
  obtain rfl := Except.ok.inj h
  obtain rfl := Except.ok.inj (hnames.symm.trans
    (bind_eq_ok hresources (bind_eq_ok hdata rfl)))
  obtain ⟨l, hl, rfl⟩ := exists_of_mem_edges_links (by simp only [edges_nodes, edges_empty]) he
  obtain ⟨resource, hresource, hl⟩ := List.mem_flatMap.mp hl
  obtain ⟨name, hname, rfl⟩ := List.mem_map.mp hl
  apply joins_drawn
  · exact List.mem_append_left _ (hclosed resources hresources resource hresource name hname)
  · exact List.mem_append_left _ (List.mem_map_of_mem hresource)

end IbmCloud

/-! ## Documents -/

/-- A document that refers to its own entities only. -/
def IsClosed (doc : Document) : Prop :=
  match doc.format with
  | .compose => Compose.IsClosed doc.root
  | .terraform => Terraform.IsClosed doc.root
  | .cloudFormation => CloudFormation.IsClosed doc.root
  | .ibmCloud => IbmCloud.IsClosed doc.root
  | .kubernetes | .resourceManager | .unknown => True

theorem joins_of_draw_eq_ok {doc : Document} (h : draw doc = .ok d)
    (hnames : nodeNames doc = .ok names) (hclosed : IsClosed doc) (he : e ∈ d.edges) :
    Joins names e := by
  have hdrawn := drawn?_of_draw_eq_ok h
  unfold drawn? at hdrawn
  unfold nodeNames at hnames
  unfold IsClosed at hclosed
  cases hformat : doc.format <;> rw [hformat] at hdrawn hnames hclosed
  case compose =>
    exact Except.ok.inj hnames ▸ Compose.joins_draw (Option.some.inj hdrawn) hclosed he
  case kubernetes => exact Kubernetes.joins_draw (Option.some.inj hdrawn) hnames he
  case terraform =>
    exact Except.ok.inj hnames ▸ Terraform.joins_draw (Option.some.inj hdrawn) hclosed he
  case cloudFormation =>
    exact Except.ok.inj hnames ▸ CloudFormation.joins_draw (Option.some.inj hdrawn) hclosed he
  case resourceManager => exact ResourceManager.joins_draw (Option.some.inj hdrawn) hnames he
  case ibmCloud => exact IbmCloud.joins_draw (Option.some.inj hdrawn) hnames hclosed he
  case unknown => cases hdrawn

/-- The edges of a closed document lead from nodes to nodes. -/
theorem endpoints_mem_nodeIds {doc : Document} (h : draw doc = .ok d) (hclosed : IsClosed doc) :
    ∀ e ∈ d.edges, e.source ∈ d.nodeIds ∧ e.target ∈ d.nodeIds := by
  intro e he
  obtain ⟨names, hnames, hids⟩ := nodeIds_of_draw_eq_ok h
  obtain ⟨source, hsource, target, htarget, hs, ht⟩ := joins_of_draw_eq_ok h hnames hclosed he
  rw [hids, hs, ht]
  exact ⟨List.mem_map_of_mem hsource, List.mem_map_of_mem htarget⟩

/-- An instance that depends on a network and is made from an image, and a module in that
network. -/
def closedConfiguration : Document where
  format := .terraform
  tree := [
    ("resource", .map [
      ("aws_vpc", .map [("main", .map [])]),
      ("aws_instance", .map [("web", .map [
        ("depends_on", .list [.str "aws_vpc.main"]),
        ("ami", .str "${data.aws_ami.base.id}")])])]),
    ("data", .map [("aws_ami", .map [("base", .map [])])]),
    ("module", .map [("edge", .map [("network", .str "${aws_vpc.main.id}")])])]

theorem endpoints_mem_nodeIds_closedConfiguration : ∃ d, draw closedConfiguration = .ok d ∧
    IsClosed closedConfiguration ∧
    d.edges.map (fun e => (e.source, e.target)) =
      [("aws_vpc_main", "aws_instance_web"), ("data_aws_ami_base", "aws_instance_web"),
        ("aws_vpc_main", "module_edge")] ∧
    ∀ e ∈ d.edges, e.source ∈ d.nodeIds ∧ e.target ∈ d.nodeIds := by
  have hclosed : IsClosed closedConfiguration := by
    refine ⟨?_, ?_, ?_⟩
    all_goals decide +kernel
  obtain ⟨d, hd, hedges⟩ : ∃ d, draw closedConfiguration = .ok d ∧
      d.edges.map (fun e => (e.source, e.target)) =
        [("aws_vpc_main", "aws_instance_web"), ("data_aws_ami_base", "aws_instance_web"),
          ("aws_vpc_main", "module_edge")] := ⟨_, rfl, by decide +kernel⟩
  exact ⟨d, hd, hclosed, hedges, endpoints_mem_nodeIds hd hclosed⟩

end Schematic.Drawing
