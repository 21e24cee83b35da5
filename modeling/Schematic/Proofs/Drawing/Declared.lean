import Schematic.Drawing.Terraform
import Schematic.Proofs.Diagram.Drawn
import Schematic.Proofs.Diagram.Identifier
import Schematic.Proofs.Drawing.Reference
import Schematic.Proofs.Success

/-!
# Declared parts of a configuration

A resource, data source, variable or module is declared as a node. There are two ways to name it
elsewhere: by its address in a list of dependencies, and by a traversal in an expression. The three
names differ, but their identifiers do not, so every edge finds the node that it is about.

## Main definitions

- `Part` — the parts of a configuration
- `Part.nodeId`, `Part.address`, `Part.head` — the identifier of a part, its address, and what a
  traversal to it begins with
- `parts` — the parts of a tree in the order of drawing

## Main statements

- `nodeIds_draw` — the nodes of a diagram are those of the parts
- `references_chainList_and_nodeIds` — what a traversal or an address points at is such a node
-/

namespace Schematic.Drawing.Terraform

open Identifier (replaced)

/-! ## Parts -/

/-- What a configuration declares. -/
inductive Part where
  | resource (type name : String)
  | dataSource (type name : String)
  | input (name : String)
  | childModule (name : String)
deriving DecidableEq, Repr

namespace Part

/-- The name of the node of a part. -/
def rawId : Part → String
  | resource type name => type ++ "_" ++ name
  | dataSource type name => "data_" ++ type ++ "_" ++ name
  | input name => "var_" ++ name
  | childModule name => "module_" ++ name

def nodeId (part : Part) : String :=
  identifier part.rawId

/-- The address of a part in a list of dependencies. -/
def address : Part → String
  | resource type name => type ++ "." ++ name
  | dataSource type name => "data." ++ type ++ "." ++ name
  | input name => "var." ++ name
  | childModule name => "module." ++ name

/-- The names at the front of a traversal to a part. -/
def head : Part → Traversal
  | resource type name => ⟨false, type, name⟩
  | dataSource type name => ⟨true, type, name⟩
  | input name => ⟨false, "var", name⟩
  | childModule name => ⟨false, "module", name⟩

end Part

/-- The parts of a tree in the order of drawing. -/
def parts (tree : Value) : List Part :=
  (instances (tree.getEntries "resource")).map (fun (type, name, _) => .resource type name) ++
    (instances (tree.getEntries "data")).map (fun (type, name, _) => .dataSource type name) ++
    (tree.getEntries "variable").map (fun (name, _) => .input name) ++
    (tree.getEntries "module").map fun (name, _) => .childModule name

/-! ## Three names for a part -/

/-- Dots are replaced in every identifier. -/
theorem identifier_addressId (address : String) :
    identifier (addressId address) = identifier address := by
  apply identifier_congr
  rw [addressId, String.toList_ofList, List.map_map]
  refine List.map_congr_left fun c _ => ?_
  rw [Function.comp_apply]
  split
  · next hc => rw [hc]; rfl
  · rfl

/-- The address of a part leads to its node. -/
theorem identifier_address (part : Part) : identifier (addressId part.address) = part.nodeId := by
  have hpoint : replaced '.' = replaced '_' := by decide
  rw [identifier_addressId, Part.nodeId]
  apply identifier_congr
  cases part <;> simp [Part.address, Part.rawId, hpoint]

/-- A traversal that begins with the names of a part points at its node, if at any. -/
theorem identifier_target {part : Part} {t : Traversal} (ht : t = part.head) {target : String}
    (h : t.target? = some target) : identifier target = part.nodeId := by
  have hmodule : "module" ∉ valueRoots := by decide
  subst ht
  cases part with
  | resource type name =>
    unfold Part.head Traversal.target? at h
    simp only [Bool.false_eq_true, if_false] at h
    split at h
    · cases h
    · split at h
      · next hroot =>
        obtain rfl := Option.some.inj h
        rw [Part.nodeId, Part.rawId, hroot]
        rfl
      · exact Option.some.inj h ▸ rfl
  | dataSource type name => exact Option.some.inj h ▸ rfl
  | input name => cases h
  | childModule name =>
    unfold Part.head Traversal.target? at h
    simp only [Bool.false_eq_true, if_false] at h
    exact Option.some.inj h ▸ rfl

/-! ## The nodes of a diagram -/

theorem id_of_resourceNode {type name : String} {config : Value} {n : Diagram.Node}
    (h : resourceNode type name config = .ok n) : n.id = type ++ "_" ++ name := by
  obtain ⟨details, -, h⟩ := exists_of_bind_eq_ok h
  obtain ⟨count, -, h⟩ := exists_of_bind_eq_ok h
  exact Except.ok.inj h ▸ rfl

theorem id_of_variableNode {name : String} {info : Value} {n : Diagram.Node}
    (h : variableNode name info = .ok n) : n.id = "var_" ++ name := by
  obtain ⟨type, -, h⟩ := exists_of_bind_eq_ok h
  simp only at h
  split at h
  · obtain ⟨text, -, h⟩ := exists_of_bind_eq_ok h
    obtain ⟨description, -, h⟩ := exists_of_bind_eq_ok h
    exact Except.ok.inj h ▸ rfl
  · obtain ⟨description, -, h⟩ := exists_of_bind_eq_ok h
    exact Except.ok.inj h ▸ rfl

theorem id_of_moduleNode {name : String} {config : Value} {n : Diagram.Node}
    (h : moduleNode name config = .ok n) : n.id = "module_" ++ name := by
  obtain ⟨source, -, h⟩ := exists_of_bind_eq_ok h
  exact Except.ok.inj h ▸ rfl

variable {doc : Document} {d : Diagram}

/-- The variables have the names that the tree has, wherever their details are read. -/
theorem keys_of_inputVariables {found : Entries Value} (h : inputVariables doc = .ok found) :
    found.map Prod.fst = (doc.root.getEntries "variable").map Prod.fst := by
  unfold inputVariables at h
  simp only at h
  split at h
  · obtain ⟨details, -, h⟩ := exists_of_bind_eq_ok h
    obtain rfl := Except.ok.inj h
    simp
  · exact Except.ok.inj h ▸ rfl

/-- The nodes of a diagram are those of the parts, in the same order. -/
theorem nodeIds_draw (h : draw doc = .ok d) :
    d.nodeIds = (parts doc.root).map Part.nodeId := by
  obtain ⟨found, hfound, h⟩ := exists_of_bind_eq_ok h
  obtain ⟨inputs, hinputs, h⟩ := exists_of_bind_eq_ok h
  obtain ⟨resources, hresources, h⟩ := exists_of_bind_eq_ok h
  obtain ⟨modules, hmodules, h⟩ := exists_of_bind_eq_ok h
  obtain rfl := Except.ok.inj h
  -- Each node has the identifier of the part that it was made of.
  have hresources : resources.map (fun n => identifier n.id) =
      (instances (doc.root.getEntries "resource")).map fun i => (Part.resource i.1 i.2.1).nodeId :=
    map_eq_map_of_mapM_eq_ok hresources fun _ _ hn => congrArg identifier (id_of_resourceNode hn)
  have hinputs : inputs.map (fun n => identifier n.id) =
      found.map fun e => (Part.input e.1).nodeId :=
    map_eq_map_of_mapM_eq_ok hinputs fun _ _ hn => congrArg identifier (id_of_variableNode hn)
  have hmodules : modules.map (fun n => identifier n.id) =
      (doc.root.getEntries "module").map fun e => (Part.childModule e.1).nodeId :=
    map_eq_map_of_mapM_eq_ok hmodules fun _ _ hn => congrArg identifier (id_of_moduleNode hn)
  have hnames := congrArg (List.map fun name => (Part.input name).nodeId)
    (keys_of_inputVariables hfound)
  rw [List.map_map, List.map_map] at hnames
  simp only [Diagram.nodeIds_links, Diagram.nodeIds_groupUnlessEmpty, Diagram.nodeIds_empty,
    List.nil_append, hresources, hinputs, hmodules, parts, List.map_append, List.map_map]
  exact congrArg (_ ++ _ ++ · ++ _) hnames

/-- The edges of a diagram are those of the resources and those of the modules. -/
theorem mem_edges_draw (h : draw doc = .ok d) {e : Diagram.Edge} : e ∈ d.edges ↔
    (∃ i ∈ instances (doc.root.getEntries "resource"),
      ∃ l ∈ resourceLinks i.1 i.2.1 i.2.2, l.drawn = e) ∨
    ∃ i ∈ doc.root.getEntries "module",
      ∃ l ∈ referenceLinks ("module_" ++ i.1) i.2, l.drawn = e := by
  obtain ⟨found, -, h⟩ := exists_of_bind_eq_ok h
  obtain ⟨inputs, -, h⟩ := exists_of_bind_eq_ok h
  obtain ⟨resources, -, h⟩ := exists_of_bind_eq_ok h
  obtain ⟨modules, -, h⟩ := exists_of_bind_eq_ok h
  obtain rfl := Except.ok.inj h
  simp only [Diagram.mem_edges_links, Diagram.edges_groupUnlessEmpty, Diagram.edges_empty,
    List.not_mem_nil, false_or, List.map_flatMap, List.mem_flatMap, List.mem_map]

/-- An attribute with a list of traversals refers to their targets, each where it comes first; and
these, like the addresses of dependencies, are names of the nodes that are declared. -/
theorem references_chainList_and_nodeIds (h : draw doc = .ok d) :
    (∀ (key : String) (chains : List Chain), key ≠ "depends_on" →
      references [(key, .str (Hcl.interpolated (chainList chains)))] =
        (chains.filterMap Chain.target?).eraseDups) ∧
    d.nodeIds = (parts doc.root).map Part.nodeId ∧
    ∀ part ∈ parts doc.root, identifier (addressId part.address) = part.nodeId ∧
      ∀ chain : Chain, chain.head = part.head →
        ∀ target ∈ chain.target?, identifier target = part.nodeId := by
  refine ⟨fun key chains hkey => references_chainList hkey chains, nodeIds_draw h, ?_⟩
  intro part _
  refine ⟨identifier_address part, fun chain hchain target htarget => ?_⟩
  apply identifier_target hchain
  rw [chain.target?_head]
  exact htarget

/-- An instance beside the image and the module that it is made from. -/
def webServer : Document where
  format := .terraform
  tree := [
    ("resource", .map [("aws_instance", .map [("web", .map [])])]),
    ("data", .map [("hcloud_image", .map [("ubuntu", .map [])])]),
    ("module", .map [("vpc", .map [])])]

/-- The traversal `data.hcloud_image.ubuntu[0].id`. -/
def imageChain : Chain where
  root := ⟨'d', "ata".toList, by decide, by decide⟩
  first := ⟨⟨'h', "cloud_image".toList, by decide, by decide⟩, []⟩
  more := [⟨⟨'u', "buntu".toList, by decide, by decide⟩, [.number ['0'] (by decide)]⟩,
    ⟨⟨'i', "d".toList, by decide, by decide⟩, []⟩]
  indices_first := fun _ _ => rfl

/-- The traversal `module.vpc.*`. -/
def networkChain : Chain where
  root := ⟨'m', "odule".toList, by decide, by decide⟩
  first := ⟨⟨'v', "pc".toList, by decide, by decide⟩, [.splat]⟩
  more := []
  indices_first := fun _ h => absurd rfl h

theorem references_chainList_and_nodeIds_webServer : ∃ d, draw webServer = .ok d ∧
    d.nodeIds = ["aws_instance_web", "data_hcloud_image_ubuntu", "module_vpc"] ∧
    references [("tags", .str "${data.hcloud_image.ubuntu[0].id, module.vpc.*, module.vpc.*}")] =
      ["data_hcloud_image_ubuntu", "module_vpc"] ∧
    identifier (addressId "data.hcloud_image.ubuntu") = "data_hcloud_image_ubuntu" ∧
    identifier "module_vpc" = (Part.childModule "vpc").nodeId := by
  obtain ⟨d, hd⟩ : ∃ d, draw webServer = .ok d := ⟨_, rfl⟩
  obtain ⟨hreferences, hids, hparts⟩ := references_chainList_and_nodeIds hd
  have hkey : "tags" ≠ "depends_on" := by decide
  have hfound := hreferences "tags" [imageChain, networkChain, networkChain] hkey
  have himage := (hparts (.dataSource "hcloud_image" "ubuntu") (by decide)).1
  have hnetwork := (hparts (.childModule "vpc") (by decide)).2 networkChain rfl "module_vpc" rfl
  refine ⟨d, hd, ?_, ?_, ?_, hnetwork⟩
  · rw [hids]
    decide +kernel
  · exact hfound
  · exact himage.trans (by decide +kernel)

end Schematic.Drawing.Terraform
