import Schematic.Proofs.Drawing.Closed
import Schematic.Proofs.Drawing.Success

/-!
# Manifests as they are drawn

Documents that are mappings are resources, named by what their metadata say or by defaults; other
documents are left out, but their indexes are not given to anybody else. Drawing makes one group of
nodes for each namespace and then all edges, resource after resource. It fails only where a document
holds an integer that is too long to be written.

## Main definitions

- `Value.IsNamed` — the text that a key or a default gives
- `Kubernetes.IsResource`, `Kubernetes.AreResources` — the resources of documents
- `Kubernetes.nodeOf` — the node of a resource
- `Kubernetes.drawnGroups` — the groups of a drawing, without edges

## Main statements

- `Kubernetes.resources_eq_ok_iff` — the resources that are read are those of the documents
- `Kubernetes.draw_eq_error_or_ok` — how a drawing goes
-/

namespace Schematic

/-- The text of the scalar under a key, unless there is none or an empty one, and else a default. -/
def Value.IsNamed (v : Value) (key otherwise text : String) : Prop :=
  v.getText key = .ok text ∧ text ≠ "" ∨ v.getText key = .ok "" ∧ text = otherwise

theorem Value.nameOr_eq_ok_iff {v : Value} {key otherwise text : String} :
    v.nameOr key otherwise = .ok text ↔ v.IsNamed key otherwise text := by
  constructor
  · intro h
    obtain ⟨name, hname, h⟩ := exists_of_bind_eq_ok h
    obtain rfl := Except.ok.inj h
    split
    · next hempty => exact .inr ⟨hempty ▸ hname, rfl⟩
    · next hnonempty => exact .inl ⟨hname, hnonempty⟩
  · rintro (⟨htext, hnonempty⟩ | ⟨htext, rfl⟩)
    · exact bind_eq_ok htext (by rw [if_neg hnonempty]; rfl)
    · exact bind_eq_ok htext rfl

namespace Drawing.Kubernetes

open Diagram

/-! ## Resources -/

/-- The resource of a manifest at an index. -/
structure IsResource (index : Nat) (body : Value) (r : Resource) : Prop where
  kind : body.IsNamed "kind" "Unknown" r.kind
  name : (body.get "metadata").IsNamed "name" s!"resource_{index}" r.name
  space : (body.get "metadata").IsNamed "namespace" "default" r.space
  body_eq : r.body = body

theorem resource_eq_ok_iff {index : Nat} {body : Value} {r : Resource} :
    resource index body = .ok r ↔ IsResource index body r := by
  constructor
  · intro h
    obtain ⟨kind, hkind, h⟩ := exists_of_bind_eq_ok h
    obtain ⟨name, hname, h⟩ := exists_of_bind_eq_ok h
    obtain ⟨space, hspace, h⟩ := exists_of_bind_eq_ok h
    obtain rfl := Except.ok.inj h
    exact ⟨Value.nameOr_eq_ok_iff.mp hkind, Value.nameOr_eq_ok_iff.mp hname,
      Value.nameOr_eq_ok_iff.mp hspace, rfl⟩
  · rintro ⟨hkind, hname, hspace, rfl⟩
    exact bind_eq_ok (Value.nameOr_eq_ok_iff.mpr hkind) (bind_eq_ok
      (Value.nameOr_eq_ok_iff.mpr hname) (bind_eq_ok (Value.nameOr_eq_ok_iff.mpr hspace) rfl))

/-- The documents that are mappings, each with its index among all documents. -/
def mappings (documents : List Value) : List (Value × Nat) :=
  documents.zipIdx.filter fun (body, _) => body.isMap

/-- One resource of each mapping, in the order of the documents. -/
def AreResources (documents : List Value) (rs : List Resource) : Prop :=
  List.Forall₂ (fun (body, index) r => IsResource index body r) (mappings documents) rs

theorem resources_eq_ok_iff {documents : List Value} {rs : List Resource} :
    resources documents = .ok rs ↔ AreResources documents rs := by
  simp only [resources, mapM_eq_ok_iff, resource_eq_ok_iff]
  rfl

/-! ## Groups -/

/-- The node of a resource; of one that cannot be drawn, no more than its identifier. -/
def nodeOf (r : Resource) : Node :=
  (node r).toOption.getD { id := r.nodeName, label := [] }

theorem node_eq_ok_nodeOf {r : Resource} (h : Succeeds (node r)) : node r = .ok (nodeOf r) := by
  obtain ⟨n, hn⟩ := h
  rw [nodeOf, hn]
  rfl

/-- The namespaces of resources, each with the nodes of its members. -/
def groupsOf (rs : List Resource) : List (String × List Node) :=
  (namespaces rs).map fun space => (space, (members rs space).map nodeOf)

/-- The groups for the namespaces of resources, one after the other. -/
def drawnGroups (rs : List Resource) : Diagram :=
  (groupsOf rs).foldl (fun d (space, nodes) =>
    d.group ("NS_" ++ space) ("🏠 Namespace: " ++ space) nodes) (Diagram.empty .flowchart styles)

/-- What is drawn of resources: their nodes in groups, and then their edges. -/
structure IsDrawnFrom (rs : List Resource) (d : Diagram) : Prop where
  node_eq : ∀ r ∈ rs, node r = .ok (nodeOf r)
  exists_links : ∃ ls, List.Forall₂ (fun r ls => links rs r = .ok ls) rs ls ∧
    d = (drawnGroups rs).links ls.flatten

theorem isDrawnFrom_of_draw_eq_ok {documents : List Value} {d : Diagram}
    (h : draw documents = .ok d) : ∃ rs, AreResources documents rs ∧ IsDrawnFrom rs d := by
  obtain ⟨rs, hrs, h⟩ := exists_of_bind_eq_ok h
  obtain ⟨groups, hgroups, h⟩ := exists_of_bind_eq_ok h
  obtain ⟨ls, hls, h⟩ := exists_of_bind_eq_ok h
  obtain rfl := Except.ok.inj h
  -- Every resource is a member of its namespace, so its node has been made.
  have hnode : ∀ r ∈ rs, node r = .ok (nodeOf r) := by
    intro r hr
    have hspace : r.space ∈ namespaces rs := Text.mem_distinct.mpr (List.mem_map_of_mem hr)
    have hmember : r ∈ members rs r.space := List.mem_filter.mpr ⟨hr, beq_self_eq_true _⟩
    have hmembers := (succeeds_mapM_iff.mp ⟨_, hgroups⟩ r.space hspace).of_bind
    exact node_eq_ok_nodeOf (succeeds_mapM_iff.mp hmembers r hmember)
  have hmade : groups = groupsOf rs := by
    refine (List.map_id groups).symm.trans (map_eq_map_of_mapM_eq_ok hgroups fun space g hg => ?_)
    obtain ⟨nodes, hnodes, hg⟩ := exists_of_bind_eq_ok hg
    obtain rfl := Except.ok.inj hg
    have hall : (members rs space).mapM node = .ok ((members rs space).map nodeOf) :=
      mapM_eq_ok fun r hr => hnode r (mem_of_mem_members hr)
    exact congrArg (Prod.mk space) (Except.ok.inj (hnodes.symm.trans hall))
  refine ⟨rs, resources_eq_ok_iff.mp hrs, hnode, ls, mapM_eq_ok_iff.mp hls, ?_⟩
  rw [hmade]
  rfl

/-- Resources are drawn from the documents, unless one of these holds an integer that is too long
to be written. -/
theorem draw_eq_error_or_ok (documents : List Value) :
    (∃ e, draw documents = .error e ∧ ∃ document ∈ documents, document.isWritable = false) ∨
      ∃ rs d, draw documents = .ok d ∧ d.render = .ok d.markup ∧ AreResources documents rs ∧
        IsDrawnFrom rs d := by
  have hwritable (hnone : ¬∃ document ∈ documents, document.isWritable = false) :
      Succeeds (draw documents) := by
    push Not at hnone
    exact succeeds_draw fun document hmem => by simpa using hnone document hmem
  rcases eq_error_or_eq_ok hwritable with herror | ⟨d, hdraw⟩
  · exact .inl herror
  · obtain ⟨rs, hrs, hdrawn⟩ := isDrawnFrom_of_draw_eq_ok hdraw
    exact .inr ⟨rs, d, hdraw, (isSound_draw hdraw).render_eq_ok, hrs, hdrawn⟩

end Drawing.Kubernetes

end Schematic
