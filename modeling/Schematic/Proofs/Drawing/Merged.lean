import Schematic.Proofs.Drawing.Declared

/-!
# Resources with one node

The node of a resource is found from its type and its name alone, so that an edge can find it from
an address. What an identifier keeps of these are their words: where the type ends and the name
begins is not told by it, and neither is the number of underscores between two words. Resources
that have the same words are drawn as one node, and no others are.

## Main statements

- `nodeId_resource_eq_iff` — the resources with one identifier
- `nodeIds_eq_iff_marked_eq` — the resources of a diagram that share a node and its edges
-/

namespace Schematic.Drawing.Terraform

open Identifier (marked words)

/-- The words of a resource are those of its type and those of its name. -/
theorem words_rawId_resource (type name : String) :
    words (Part.resource type name).rawId.toList = words type.toList ++ words name.toList := by
  rw [Part.rawId, String.toList_append, String.toList_append, List.append_assoc]
  exact Identifier.words_append_underscore _ _

/-- Resources have one identifier exactly if they have the same words, but for the marks. -/
theorem nodeId_resource_eq_iff (type name type' name' : String) :
    (Part.resource type name).nodeId = (Part.resource type' name').nodeId ↔
      marked (words type.toList ++ words name.toList) =
        marked (words type'.toList ++ words name'.toList) := by
  rw [Part.nodeId, Part.nodeId, identifier_eq_iff, words_rawId_resource, words_rawId_resource]

/-- The links of a resource are drawn to its node. -/
theorem target_of_mem_resourceLinks {type name : String} {config : Value} {l : Diagram.Link}
    (h : l ∈ resourceLinks type name config) :
    l.drawn.target = (Part.resource type name).nodeId := by
  rcases List.mem_append.mp h with h | h
  · obtain ⟨address, -, rfl⟩ := List.mem_map.mp h
    rfl
  · obtain ⟨target, -, rfl⟩ := List.mem_map.mp h
    rfl

variable {doc : Document} {d : Diagram}

/-- The resources come first among the nodes. -/
theorem getElem?_nodeIds_draw (h : draw doc = .ok d) {i : Nat} {type name : String}
    {config : Value}
    (hi : (instances (doc.root.getEntries "resource"))[i]? = some (type, name, config)) :
    d.nodeIds[i]? = some (Part.resource type name).nodeId := by
  obtain ⟨hlt, -⟩ := List.getElem?_eq_some_iff.mp hi
  rw [nodeIds_draw h, parts, List.append_assoc, List.append_assoc, List.getElem?_map,
    List.getElem?_append_left (by rwa [List.length_map]), List.getElem?_map, hi]
  rfl

/-- Two resources of a configuration share a node exactly if their types and names have the same
words one behind the other, but for the marks; and all edges of a resource lead to its node. -/
theorem nodeIds_eq_iff_marked_eq (h : draw doc = .ok d) {i j : Nat}
    {type name type' name' : String} {config config' : Value}
    (hi : (instances (doc.root.getEntries "resource"))[i]? = some (type, name, config))
    (hj : (instances (doc.root.getEntries "resource"))[j]? = some (type', name', config')) :
    (d.nodeIds[i]? = d.nodeIds[j]? ↔
      marked (words type.toList ++ words name.toList) =
        marked (words type'.toList ++ words name'.toList)) ∧
    ∀ l ∈ resourceLinks type name config,
      l.drawn ∈ d.edges ∧ d.nodeIds[i]? = some l.drawn.target := by
  have hid := getElem?_nodeIds_draw h hi
  constructor
  · rw [hid, getElem?_nodeIds_draw h hj, Option.some_inj, nodeId_resource_eq_iff]
  · intro l hl
    refine ⟨?_, by rw [hid, target_of_mem_resourceLinks hl]⟩
    apply (mem_edges_draw h).mpr
    exact .inl ⟨(type, name, config), List.mem_of_getElem? hi, l, hl, rfl⟩

/-- Two resources with the same words, and one with others that depends on both. -/
def sharedWords : Document where
  format := .terraform
  tree := [("resource", .map [
    ("a_b", .map [("c", .map [])]),
    ("a", .map [
      ("b_c", .map []),
      ("bc", .map [("depends_on", .list [.str "a_b.c", .str "a.b_c"])])])])]

theorem nodeIds_eq_iff_marked_eq_sharedWords : ∃ d, draw sharedWords = .ok d ∧
    d.nodeIds[0]? = d.nodeIds[1]? ∧ d.nodeIds[1]? ≠ d.nodeIds[2]? := by
  obtain ⟨d, hd⟩ : ∃ d, draw sharedWords = .ok d := ⟨_, rfl⟩
  have hfirst : (instances (sharedWords.root.getEntries "resource"))[0]? =
      some ("a_b", "c", .map []) := rfl
  have hsecond : (instances (sharedWords.root.getEntries "resource"))[1]? =
      some ("a", "b_c", .map []) := rfl
  have hthird : (instances (sharedWords.root.getEntries "resource"))[2]? =
      some ("a", "bc", .map [("depends_on", .list [.str "a_b.c", .str "a.b_c"])]) := rfl
  refine ⟨d, hd, (nodeIds_eq_iff_marked_eq hd hfirst hsecond).1.mpr (by decide +kernel), ?_⟩
  intro heq
  have hwords := (nodeIds_eq_iff_marked_eq hd hsecond hthird).1.mp heq
  exact absurd hwords (by decide +kernel)

/-- Resources of different types and names, drawn under one identifier. -/
theorem not_nodeIds_injective : ∃ d, draw sharedWords = .ok d ∧
    (instances (sharedWords.root.getEntries "resource")).map (fun i => (i.1, i.2.1)) =
      [("a_b", "c"), ("a", "b_c"), ("a", "bc")] ∧
    d.nodeIds = ["a_b_c", "a_b_c", "a_bc"] :=
  ⟨_, rfl, rfl, by decide +kernel⟩

end Schematic.Drawing.Terraform
