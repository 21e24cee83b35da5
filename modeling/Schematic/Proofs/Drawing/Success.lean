import Schematic.Drawing.Generate
import Schematic.Proofs.Value.Writable

/-!
# Drawing writable trees

A tree whose integers can all be written is drawn, whatever shape it has: the views of a tree are
total, so the only step of drawing that can fail is the text of an integer. For every way of
drawing the module goes through its functions in the order in which they are defined.

Configurations of resources are different in one point. The details of their variables may come
from the text of the document and not from its tree, so `Terraform.draw` succeeds once reading
these details does.

## Main statements

- `Compose.succeeds_draw`, `Kubernetes.succeeds_draw`, `CloudFormation.succeeds_draw`,
  `ResourceManager.succeeds_draw`, `IbmCloud.succeeds_draw` — trees that are drawn
- `Terraform.succeeds_draw` — configurations that are drawn
-/

namespace Schematic.Drawing

open Value

variable {config spec tree : Value}

/-! ## Compositions -/

namespace Compose

theorem succeeds_portText {port : Value} (h : port.isWritable = true) :
    Succeeds (portText port) := by
  unfold portText
  split
  · refine (succeeds_getText h "published").bind fun _ _ => ?_
    exact (succeeds_getText h "target").bind fun _ _ => succeeds_pure _
  · exact succeeds_text h

theorem succeeds_portLines {ports : List Value} (h : ∀ port ∈ ports, port.isWritable = true) :
    Succeeds (portLines ports) := by
  have listed : Succeeds ((ports.take maxPorts).mapM fun port =>
      return "🌐 " ++ (← portText port)) := by
    apply succeeds_mapM
    intro port hport
    have hp := succeeds_portText (h port (List.mem_of_mem_take hport))
    exact hp.bind fun _ _ => succeeds_pure _
  exact listed.bind fun _ _ => succeeds_pure _

theorem succeeds_commandText {command : Value} (h : command.isWritable = true) :
    Succeeds (commandText command) := by
  unfold commandText
  split
  · next parts =>
    have texts : Succeeds (parts.mapM Value.text) := by
      apply succeeds_mapM
      intro part hpart
      exact succeeds_text (isWritable_of_mem_listed h hpart)
    exact texts.bind fun _ _ => succeeds_pure _
  · exact succeeds_text h

theorem succeeds_lineFor {key : String} {line : Value → Except NumberError String}
    (h : Succeeds (line (config.get key))) : Succeeds (lineFor config key line) :=
  Succeeds.ite (fun _ => h.bind fun _ _ => succeeds_pure _) (fun _ => succeeds_pure _)

theorem succeeds_serviceLabel (name : String) (h : config.isWritable = true) :
    Succeeds (serviceLabel name config) := by
  have scalar (key : String) : Succeeds ((config.get key).scalarText "") :=
    succeeds_scalarText (isWritable_get h key) ""
  have ports : Succeeds (portLines (config.get "ports").items) :=
    succeeds_portLines fun _ hport => isWritable_of_mem_items (isWritable_get h "ports") hport
  have command : Succeeds (commandText (config.get "command")) :=
    succeeds_commandText (isWritable_get h "command")
  refine (succeeds_nameOr h "image" "custom").bind fun _ _ => ?_
  refine ports.bind fun _ _ => ?_
  refine (succeeds_lineFor (succeeds_pure _)).bind fun _ _ => ?_
  refine (succeeds_lineFor ((scalar _).bind fun _ _ => succeeds_pure _)).bind fun _ _ => ?_
  refine (succeeds_lineFor ((scalar _).bind fun _ _ => succeeds_pure _)).bind fun _ _ => ?_
  refine (succeeds_lineFor (command.bind fun _ _ => succeeds_pure _)).bind fun _ _ => ?_
  exact succeeds_pure _

theorem succeeds_serviceNode (name : String) (h : config.isWritable = true) :
    Succeeds (serviceNode name config) := by
  refine (succeeds_nameOr h "image" "custom").bind fun _ _ => ?_
  exact (succeeds_serviceLabel name h).bind fun _ _ => succeeds_pure _

theorem succeeds_networkNode (name : String) (h : config.isWritable = true) :
    Succeeds (networkNode name config) :=
  (succeeds_nameOr h "driver" "bridge").bind fun _ _ => succeeds_pure _

theorem succeeds_volumeNode (name : String) (h : config.isWritable = true) :
    Succeeds (volumeNode name config) :=
  (succeeds_nameOr h "driver" "local").bind fun _ _ => succeeds_pure _

theorem succeeds_namedVolume {mount : Value} (h : mount.isWritable = true) :
    Succeeds (namedVolume? mount) := by
  unfold namedVolume?
  split
  · refine (succeeds_getText h "source").bind fun _ _ => ?_
    exact (succeeds_getText h "type" "volume").bind fun _ _ => succeeds_pure _
  · exact succeeds_pure _
  · exact succeeds_pure _

theorem succeeds_mounts (name : String) (h : config.isWritable = true) :
    Succeeds (mounts name config) := by
  have volumes : Succeeds ((config.get "volumes").items.mapM namedVolume?) := by
    apply succeeds_mapM
    intro mount hmount
    exact succeeds_namedVolume (isWritable_of_mem_items (isWritable_get h "volumes") hmount)
  exact volumes.bind fun _ _ => succeeds_pure _

/-- A writable composition is drawn. -/
theorem succeeds_draw (h : tree.isWritable = true) : Succeeds (draw tree) := by
  -- All three sections are read entry by entry, and the entries of a writable tree are writable.
  have hentry {key : String} {e : String × Value} (he : e ∈ tree.getEntries key) :
      e.2.isWritable = true := isWritable_of_mem_getEntries h he
  have services := succeeds_mapM_pairs fun e he =>
    succeeds_serviceNode e.1 (@hentry "services" e he)
  have networks := succeeds_mapM_pairs fun e he =>
    succeeds_networkNode e.1 (@hentry "networks" e he)
  have volumes := succeeds_mapM_pairs fun e he => succeeds_volumeNode e.1 (@hentry "volumes" e he)
  have mounted := succeeds_mapM_pairs fun e he => succeeds_mounts e.1 (@hentry "services" e he)
  refine services.bind fun _ _ => ?_
  refine networks.bind fun _ _ => ?_
  refine volumes.bind fun _ _ => ?_
  refine Succeeds.ite (fun _ => succeeds_pure _) fun _ => ?_
  exact mounted.bind fun _ _ => succeeds_pure _

end Compose

/-! ## Stack templates -/

namespace CloudFormation

theorem succeeds_resourceNode (id : String) (h : config.isWritable = true) :
    Succeeds (resourceNode id config) :=
  (succeeds_nameOr h "Type" "Unknown").bind fun _ _ => succeeds_pure _

theorem succeeds_parameterNode (name : String) (h : config.isWritable = true) :
    Succeeds (parameterNode name config) :=
  (succeeds_getText h "Type").bind fun _ _ => succeeds_pure _

/-- A writable stack template is drawn. -/
theorem succeeds_draw (h : tree.isWritable = true) : Succeeds (draw tree) := by
  have hresource {e : String × Value} (he : e ∈ resources tree) : e.2.isWritable = true :=
    isWritable_of_mem_getEntries h (List.mem_filter.mp he).1
  have hparameter {e : String × Value} (he : e ∈ tree.getEntries "Parameters") :
      e.2.isWritable = true := isWritable_of_mem_getEntries h he
  have resourceNodes := succeeds_mapM_pairs fun e he => succeeds_resourceNode e.1 (@hresource e he)
  have parameterNodes :=
    succeeds_mapM_pairs fun e he => succeeds_parameterNode e.1 (@hparameter e he)
  refine resourceNodes.bind fun _ _ => ?_
  exact parameterNodes.bind fun _ _ => succeeds_pure _

end CloudFormation

/-! ## Resource manager templates -/

namespace ResourceManager

/-- A resource manager template is drawn if the types and names of its resources can be written. -/
theorem succeeds_draw_of_names (h : ∀ e ∈ resources tree,
    (e.1.get "type").isWritable = true ∧ (e.1.get "name").isWritable = true) :
    Succeeds (draw tree) := by
  refine Succeeds.bind (succeeds_mapM fun e he => ?_) fun _ _ => succeeds_pure _
  obtain ⟨htype, hname⟩ := h e he
  have hnode : Succeeds (resourceNode e.1 e.2) :=
    (succeeds_nameOr_of_get htype "Unknown").bind fun _ _ =>
      (succeeds_nameOr_of_get hname _).bind fun _ _ => succeeds_pure _
  exact hnode.bind fun _ _ => succeeds_pure _

/-- So a writable one is. -/
theorem succeeds_draw (h : tree.isWritable = true) : Succeeds (draw tree) := by
  refine succeeds_draw_of_names fun e he => ?_
  have hmem : e.1 ∈ tree.getListed "resources" :=
    List.fst_mem_of_mem_zipIdx (List.mem_filter.mp he).1
  have hresource := isWritable_of_mem_getListed h hmem
  exact ⟨isWritable_get hresource "type", isWritable_get hresource "name"⟩

end ResourceManager

/-! ## Lists of cloud resources -/

namespace IbmCloud

theorem succeeds_identity {entry : Value} (h : entry.isWritable = true) :
    Succeeds (identity? entry) := by
  refine (succeeds_getText h "name").bind fun _ _ => ?_
  exact (succeeds_getText h "type").bind fun _ _ => succeeds_pure _

theorem succeeds_identified {entries : List Value}
    (h : ∀ entry ∈ entries, entry.isWritable = true) : Succeeds (identified entries) := by
  have found : Succeeds (entries.mapM fun entry => return (← identity? entry, entry)) := by
    apply succeeds_mapM
    intro entry hentry
    exact (succeeds_identity (h entry hentry)).bind fun _ _ => succeeds_pure _
  exact found.bind fun _ _ => succeeds_pure _

/-- A writable list of cloud resources is drawn. -/
theorem succeeds_draw (h : tree.isWritable = true) : Succeeds (draw tree) := by
  have listed (key : String) : Succeeds (identified (tree.getListed key)) :=
    succeeds_identified fun _ hentry => isWritable_of_mem_getListed h hentry
  refine (listed "resources").bind fun _ _ => ?_
  exact (listed "data_sources").bind fun _ _ => succeeds_pure _

end IbmCloud

/-! ## Cluster manifests -/

namespace Kubernetes

theorem succeeds_resource (index : Nat) {body : Value} (h : body.isWritable = true) :
    Succeeds (resource index body) := by
  have hmeta := isWritable_get h "metadata"
  refine (succeeds_nameOr h "kind" "Unknown").bind fun _ _ => ?_
  refine (succeeds_nameOr hmeta "name" _).bind fun _ _ => ?_
  exact (succeeds_nameOr hmeta "namespace" "default").bind fun _ _ => succeeds_pure _

/-- A resource keeps the manifest that it was made of. -/
theorem body_of_resource {index : Nat} {body : Value} {r : Resource}
    (h : resource index body = .ok r) : r.body = body := by
  obtain ⟨kind, _, h⟩ := exists_of_bind_eq_ok h
  obtain ⟨name, _, h⟩ := exists_of_bind_eq_ok h
  obtain ⟨space, _, h⟩ := exists_of_bind_eq_ok h
  exact Except.ok.inj h ▸ rfl

/-- The resources of writable documents are there, and their manifests are writable. -/
theorem exists_resources {documents : List Value}
    (h : ∀ document ∈ documents, document.isWritable = true) :
    ∃ rs, resources documents = .ok rs ∧ ∀ r ∈ rs, r.body.isWritable = true := by
  have hmem {p : Value × Nat → Bool} : ∀ e ∈ documents.zipIdx.filter p,
      e.1.isWritable = true := by
    intro e he
    exact h e.1 (List.fst_mem_of_mem_zipIdx (List.mem_filter.mp he).1)
  obtain ⟨rs, hrs⟩ : Succeeds (resources documents) :=
    succeeds_mapM fun e he => succeeds_resource e.2 (hmem e he)
  refine ⟨rs, hrs, ?_⟩
  intro r hr
  obtain ⟨e, he, hres⟩ := exists_mem_of_mapM_eq_ok hrs r hr
  rw [body_of_resource hres]
  exact hmem e he

theorem succeeds_amounts (title : String) (h : spec.isWritable = true) :
    Succeeds (amounts title spec) := by
  refine Succeeds.ite (fun _ => ?_) (fun _ => succeeds_pure _)
  refine (succeeds_getText h "cpu" "N/A").bind fun _ _ => ?_
  exact (succeeds_getText h "memory" "N/A").bind fun _ _ => succeeds_pure _

theorem succeeds_containerLines {first : Value} (others : Nat) (h : first.isWritable = true) :
    Succeeds (containerLines first others) := by
  have ports : Succeeds (((first.getListed "ports").take maxContainerPorts).mapM fun port =>
      return "🌐 " ++ (← port.getText "containerPort")) := by
    apply succeeds_mapM
    intro port hport
    have hp := isWritable_of_mem_getListed h (List.mem_of_mem_take hport)
    exact (succeeds_getText hp "containerPort").bind fun _ _ => succeeds_pure _
  refine (succeeds_nameOr h "image" "unknown").bind fun _ _ => ?_
  refine (succeeds_amounts _ (isWritable_path h _)).bind fun _ _ => ?_
  refine (succeeds_amounts _ (isWritable_path h _)).bind fun _ _ => ?_
  exact ports.bind fun _ _ => succeeds_pure _

/-- The lines of the first container behind others. -/
theorem succeeds_firstContainer {containers : List Value}
    (h : ∀ c ∈ containers, c.isWritable = true) (replicas : List String) :
    Succeeds (match containers with
      | [] => return replicas
      | first :: others => return replicas ++ (← containerLines first others.length)) := by
  cases containers with
  | nil => exact succeeds_pure _
  | cons first others =>
    have hfirst := h first List.mem_cons_self
    exact (succeeds_containerLines _ hfirst).bind fun _ _ => succeeds_pure _

theorem succeeds_workloadLines (h : spec.isWritable = true) : Succeeds (workloadLines spec) := by
  have hcontainers : ∀ c ∈ ((spec.path ["template", "spec"]).getListed "containers").filter
      Value.isMap, c.isWritable = true := by
    intro c hc
    exact isWritable_of_mem_getListed (isWritable_path h _) (List.mem_filter.mp hc).1
  -- Whatever is said about replicas, the lines of the first container follow.
  have rest := succeeds_firstContainer hcontainers
  refine Succeeds.ite (fun _ => ?_) (fun _ => (succeeds_pure _).bind fun _ _ => rest _)
  exact (succeeds_getText h "replicas").bind fun _ _ => rest _

theorem succeeds_storageLine {storage : Value} (h : storage.isWritable = true) :
    Succeeds (storageLine storage) :=
  Succeeds.ite (fun _ => (succeeds_text h).bind fun _ _ => succeeds_pure _)
    (fun _ => succeeds_pure _)

theorem succeeds_statefulLines (h : spec.isWritable = true) : Succeeds (statefulLines spec) := by
  unfold statefulLines
  split
  · exact succeeds_pure _
  · next first others heq =>
    have hfirst : first.isWritable = true :=
      isWritable_of_mem_getListed h (heq ▸ List.mem_cons_self)
    exact (succeeds_storageLine (isWritable_path hfirst _)).bind fun _ _ => succeeds_pure _

theorem succeeds_portMapping {port : Value} (h : port.isWritable = true) :
    Succeeds (portMapping port) := by
  refine (succeeds_getText h "port").bind fun _ _ => ?_
  exact (succeeds_getText h "targetPort").bind fun _ _ => succeeds_pure _

theorem succeeds_serviceLines (h : spec.isWritable = true) : Succeeds (serviceLines spec) := by
  have mappings : Succeeds (((spec.getListed "ports").filter Value.isMap).mapM portMapping) := by
    apply succeeds_mapM
    intro port hport
    exact succeeds_portMapping (isWritable_of_mem_getListed h (List.mem_filter.mp hport).1)
  refine (succeeds_nameOr h "type" "ClusterIP").bind fun _ _ => ?_
  exact mappings.bind fun _ _ => succeeds_pure _

theorem succeeds_claimLines (h : spec.isWritable = true) : Succeeds (claimLines spec) := by
  have modes : Succeeds ((spec.getListed "accessModes").mapM Value.text) :=
    succeeds_mapM fun mode hmode => succeeds_text (isWritable_of_mem_getListed h hmode)
  refine (succeeds_storageLine (isWritable_path h _)).bind fun _ _ => ?_
  exact modes.bind fun _ _ => succeeds_pure _

theorem succeeds_hostLines (h : spec.isWritable = true) : Succeeds (hostLines spec) := by
  have hosts : Succeeds ((spec.getListed "rules").mapM fun rule => rule.getText "host") :=
    succeeds_mapM fun rule hrule => succeeds_getText (isWritable_of_mem_getListed h hrule) "host"
  exact hosts.bind fun _ _ => succeeds_pure _

theorem succeeds_kindLines {r : Resource} (h : r.body.isWritable = true) :
    Succeeds (kindLines r) := by
  have hspec := isWritable_get h "spec"
  have workload := succeeds_workloadLines hspec
  unfold kindLines
  split
  · exact workload
  · exact workload
  · refine workload.bind fun _ _ => ?_
    exact (succeeds_statefulLines hspec).bind fun _ _ => succeeds_pure _
  · exact Succeeds.ite (fun _ => succeeds_pure _) (fun _ => succeeds_serviceLines hspec)
  · exact succeeds_pure _
  · exact succeeds_pure _
  · exact succeeds_claimLines hspec
  · exact succeeds_hostLines hspec
  · exact succeeds_pure _

theorem succeeds_node {r : Resource} (h : r.body.isWritable = true) : Succeeds (node r) :=
  (succeeds_kindLines h).bind fun _ _ => succeeds_pure _

theorem succeeds_backendName {backend : Value} (h : backend.isWritable = true) :
    Succeeds (backendName backend) := by
  refine (succeeds_getText (isWritable_get h "service") "name").bind fun _ _ => ?_
  exact Succeeds.ite (fun _ => succeeds_getText h "serviceName") (fun _ => succeeds_pure _)

theorem isWritable_of_mem_backends (h : spec.isWritable = true) {backend : Value}
    (hb : backend ∈ backends spec) : backend.isWritable = true := by
  unfold backends at hb
  -- The two backends of the whole and those of the paths of all rules.
  rcases List.mem_cons.mp hb with rfl | hb
  · exact isWritable_get h "defaultBackend"
  rcases List.mem_cons.mp hb with rfl | hb
  · exact isWritable_get h "backend"
  obtain ⟨rule, hrule, hb⟩ := List.mem_flatMap.mp hb
  obtain ⟨path, hpath, rfl⟩ := List.mem_map.mp hb
  have hhttp := isWritable_get (isWritable_of_mem_getListed h hrule) "http"
  exact isWritable_get (isWritable_of_mem_getListed hhttp hpath) "backend"

theorem succeeds_backendNames (h : spec.isWritable = true) : Succeeds (backendNames spec) := by
  have names : Succeeds ((backends spec).mapM backendName) :=
    succeeds_mapM fun _ hb => succeeds_backendName (isWritable_of_mem_backends h hb)
  exact names.bind fun _ _ => succeeds_pure _

theorem succeeds_links (rs : List Resource) {r : Resource} (h : r.body.isWritable = true) :
    Succeeds (links rs r) := by
  have routed : Succeeds (routes r (members rs r.space)) :=
    (succeeds_backendNames (isWritable_get h "spec")).bind fun _ _ => succeeds_pure _
  refine Succeeds.ite (fun _ => succeeds_pure _) (fun _ => ?_)
  exact Succeeds.ite (fun _ => routed) (fun _ => succeeds_pure _)

/-- Writable manifests are drawn. -/
theorem succeeds_draw {documents : List Value}
    (h : ∀ document ∈ documents, document.isWritable = true) : Succeeds (draw documents) := by
  obtain ⟨rs, hrs, hbody⟩ := exists_resources h
  have group (space : String) : Succeeds ((members rs space).mapM node) :=
    succeeds_mapM fun r hr => succeeds_node (hbody r (List.mem_filter.mp hr).1)
  have groups : Succeeds ((namespaces rs).mapM fun space =>
      return (space, ← (members rs space).mapM node)) :=
    succeeds_mapM fun space _ => (group space).bind fun _ _ => succeeds_pure _
  have edges : Succeeds (rs.mapM (links rs)) :=
    succeeds_mapM fun r hr => succeeds_links rs (hbody r hr)
  -- The resources are there, so the rest of drawing runs on them.
  unfold draw
  rw [hrs]
  refine groups.bind fun _ _ => ?_
  exact edges.bind fun _ _ => succeeds_pure _

end Kubernetes

/-! ## Configurations of resources -/

namespace Terraform

theorem succeeds_line (h : config.isWritable = true) (detail : Detail) :
    Succeeds (detail.line config) := by
  cases detail with
  | value sign key unit =>
    refine Succeeds.ite (fun _ => ?_) (fun _ => succeeds_pure _)
    exact (succeeds_getText h key).bind fun _ _ => succeeds_pure _
  | count sign key title => exact succeeds_pure _
  | first sign key =>
    rw [Detail.line]
    split
    · exact succeeds_pure _
    · next item others heq =>
      have hitem : item.isWritable = true :=
        isWritable_of_mem_getListed h (heq ▸ List.mem_cons_self)
      exact (succeeds_text hitem).bind fun _ _ => succeeds_pure _
  | off sign key remark =>
    rw [Detail.line]
    split
    · exact succeeds_pure _
    · exact succeeds_pure _

theorem succeeds_resourceNode (type name : String) (h : config.isWritable = true) :
    Succeeds (resourceNode type name config) := by
  have details : Succeeds ((detailsOf type).mapM (Detail.line config)) :=
    succeeds_mapM fun detail _ => succeeds_line h detail
  refine details.bind fun _ _ => ?_
  exact (succeeds_line h _).bind fun _ _ => succeeds_pure _

theorem succeeds_variableNode (name : String) (h : config.isWritable = true) :
    Succeeds (variableNode name config) := by
  refine (succeeds_line h _).bind fun _ _ => ?_
  refine Succeeds.ite (fun _ => ?_) (fun _ => (succeeds_pure _).bind fun _ _ => succeeds_pure _)
  exact (succeeds_getText h "description").bind fun _ _ => succeeds_pure _

theorem succeeds_moduleNode (name : String) (h : config.isWritable = true) :
    Succeeds (moduleNode name config) :=
  (succeeds_getText h "source").bind fun _ _ => succeeds_pure _

/-- The blocks of a writable section have writable configurations. -/
theorem isWritable_of_mem_instances {sections : Entries Value}
    (h : ∀ e ∈ sections, e.2.isWritable = true) {i : String × String × Value}
    (hi : i ∈ instances sections) : i.2.2.isWritable = true := by
  obtain ⟨e, he, hi⟩ := List.mem_flatMap.mp hi
  obtain ⟨c, hc, rfl⟩ := List.mem_map.mp hi
  exact isWritable_of_mem_entries (h e he) hc

theorem succeeds_resourceNodes {sections : Entries Value}
    (h : ∀ e ∈ sections, e.2.isWritable = true) : Succeeds ((instances sections).mapM
      fun (type, name, config) => resourceNode type name config) :=
  succeeds_mapM fun i hi => succeeds_resourceNode i.1 i.2.1 (isWritable_of_mem_instances h hi)

/-- A writable configuration is drawn if the details of its variables can be read. -/
theorem succeeds_draw {doc : Document} (h : doc.root.isWritable = true) {details : Entries Value}
    (hread : inputVariables doc = .ok details)
    (hdetails : ∀ e ∈ details, e.2.isWritable = true) : Succeeds (draw doc) := by
  have hentry {key : String} : ∀ e ∈ doc.root.getEntries key, e.2.isWritable = true :=
    fun e he => isWritable_of_mem_getEntries h he
  have variableNodes :=
    succeeds_mapM_pairs fun e he => succeeds_variableNode e.1 (hdetails e he)
  have resourceNodes := succeeds_resourceNodes (@hentry "resource")
  have moduleNodes :=
    succeeds_mapM_pairs fun e he => succeeds_moduleNode e.1 (@hentry "module" e he)
  -- The details of the variables come first, and reading them was the only doubt.
  unfold draw
  rw [hread]
  refine variableNodes.bind fun _ _ => ?_
  refine resourceNodes.bind fun _ _ => ?_
  exact moduleNodes.bind fun _ _ => succeeds_pure _

end Terraform

end Schematic.Drawing
