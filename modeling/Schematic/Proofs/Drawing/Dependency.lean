import Schematic.Proofs.Drawing.Merged

/-!
# Dependencies on instances

A resource with several instances is addressed with an index behind its name: the number of one of
them, or a star for all. In an expression the index is passed over, so the edge comes from the
resource, whichever instance is meant. In a list of dependencies it becomes a part of the name. A
star leaves nothing in an identifier, but a number is a word of its own, so that edge comes from
the identifier of another resource, whose name ends in the number.

## Main definitions

- `Selector` — the instances that an address selects
- `InstanceAddress` — the address of instances of a resource
- `InstanceAddress.named` — the resource that it names in a list of dependencies

## Main statements

- `identifier_addressId_text` — where the edge of a listed dependency comes from
- `nodeId_named_eq_iff` — when this is the node of the resource
- `edges_of_instanceAddress` — the edges of dependencies of both kinds
-/

namespace Schematic.Drawing.Terraform

open Hcl (Identifier)
open Identifier (marked marked_append_ne words words_append_of_replaced words_append_word
  words_of_forall)

/-! ## Addresses of instances -/

/-- The instances of a resource that an address selects: one by its number, or all. -/
inductive Selector where
  | one (digits : List Char) (digits_ne_nil : digits ≠ [])
      (isDigit_digits : ∀ c ∈ digits, c.isDigit = true)
  | all

namespace Selector

/-- The index that selects them. -/
def index : Selector → Index
  | one digits _ h => .number digits h
  | all => .all

/-- The words that an identifier keeps of it. -/
def words : Selector → List (List Char)
  | one digits _ _ => [digits]
  | all => []

end Selector

/-- The address of instances of a resource. -/
structure InstanceAddress where
  root : Identifier
  name : Identifier
  selector : Selector
  root_not_mem : nameText root ∉ valueRoots
  root_ne_data : nameText root ≠ "data"
  root_ne_module : nameText root ≠ "module"

namespace InstanceAddress

variable (address : InstanceAddress)

def chars : List Char :=
  address.root.chars ++ '.' :: (address.name.chars ++ address.selector.index.chars)

def text : String :=
  String.ofList address.chars

/-- The resource with the instances. -/
def part : Part :=
  .resource (nameText address.root) (nameText address.name)

/-- The resource that the address names in a list of dependencies. -/
def named : Part :=
  match address.selector with
  | .one digits _ _ =>
    .resource (nameText address.root) (nameText address.name ++ "_" ++ String.ofList digits)
  | .all => address.part

/-- The address as a traversal. -/
def chain : Chain where
  root := address.root
  first := ⟨address.name, [address.selector.index]⟩
  more := []
  indices_first := fun _ hmore => absurd rfl hmore

theorem chainList_chain : chainList [address.chain] = address.chars := by
  simp [chainList, chain, Chain.chars, segmentChars, Segment.indexChars, chars]

/-- In an expression an address refers to its resource. -/
theorem targets_chars : targets address.chars = [resourceId (nameText address.root)
    (nameText address.name)] := by
  -- The root is a type of resources, so the first two names are the target.
  have htarget : address.chain.target? =
      some (nameText address.root ++ "_" ++ nameText address.name) := by
    rw [Chain.target?]
    exact (if_neg address.root_ne_data).trans
      ((if_neg address.root_ne_module).trans (if_neg address.root_not_mem))
  rw [← chainList_chain, targets_chainList, List.filterMap_cons_some htarget]
  rfl

/-! ## Identifiers of addresses -/

theorem underscore_not_mem {digits : List Char} (h : ∀ c ∈ digits, c.isDigit = true) :
    '_' ∉ digits :=
  Text.not_mem_of_class h (by decide)

theorem isAllowed_of_isDigit {c : Char} (h : c.isDigit = true) :
    Identifier.isAllowed c = true := by
  simp [Identifier.isAllowed, Char.isAlphanum, h]

theorem words_append_index (selector : Selector) (cs : List Char) :
    words (cs ++ selector.index.chars) = words cs ++ selector.words := by
  cases selector with
  | one digits hne hdigits =>
    -- The brackets are replaced: one parts the number from the name, one is trimmed.
    have hclosed : words (digits ++ [']']) = [digits] := by
      rw [words_append_of_replaced (by decide), words_of_forall hne (underscore_not_mem hdigits)
        fun c hc => isAllowed_of_isDigit (hdigits c hc)]
      rfl
    exact (words_append_of_replaced (by decide) cs _).trans (by rw [hclosed, Selector.words])
  | all => exact words_append_of_replaced (by decide) cs _

/-- The words of an address are those of both names and those of the index. -/
theorem words_text : words address.text.toList = words (nameText address.root).toList ++
    words (nameText address.name).toList ++ address.selector.words := by
  rw [text, String.toList_ofList, chars, words_append_of_replaced (by decide),
    words_append_index, nameText, nameText, String.toList_ofList, String.toList_ofList,
    List.append_assoc]

/-- The resource that is named has the words of the address. -/
theorem words_rawId_named : words address.named.rawId.toList =
    words (nameText address.root).toList ++ words (nameText address.name).toList ++
      address.selector.words := by
  unfold named
  cases address.selector with
  | one digits hne hdigits =>
    have hname : words (nameText address.name ++ "_" ++ String.ofList digits).toList =
        words (nameText address.name).toList ++ [digits] := by
      rw [String.toList_append, String.toList_append, String.toList_ofList, String.toList_ofList,
        List.append_assoc]
      exact words_append_word hne (underscore_not_mem hdigits)
        (fun c hc => isAllowed_of_isDigit (hdigits c hc)) _
    rw [words_rawId_resource, hname, List.append_assoc]
    rfl
  | all => rw [part, words_rawId_resource, Selector.words, List.append_nil]

/-- The edge of a listed dependency comes from the resource that is named. -/
theorem identifier_addressId_text : identifier (addressId address.text) = address.named.nodeId := by
  rw [identifier_addressId, Part.nodeId, identifier_eq_iff, words_text, words_rawId_named]

/-- This is the node of the resource with the instances only if all of them are meant. -/
theorem nodeId_named_eq_iff :
    address.named.nodeId = address.part.nodeId ↔ address.selector = .all := by
  rw [Part.nodeId, Part.nodeId, identifier_eq_iff, words_rawId_named, part, words_rawId_resource]
  cases address.selector with
  | one digits hne hdigits =>
    -- A number begins with no letter, so it cannot be mistaken for a mark.
    have halpha : digits.head?.any Char.isAlpha = false := by
      obtain ⟨c, rest, rfl⟩ := List.exists_cons_of_ne_nil hne
      have hdigit := hdigits c List.mem_cons_self
      rw [← Bool.not_eq_true]
      intro hletter
      rw [Text.isDigit_eq_false_of_isAlpha hletter] at hdigit
      cases hdigit
    simp only [reduceCtorEq, iff_false]
    exact marked_append_ne hne halpha _
  | all => simp [Selector.words]

/-- An attribute other than the list of dependencies has an expression that is the address. -/
def IsEmbeddedIn (config : Value) : Prop :=
  ∃ key value, (key, value) ∈ config.entries ∧ key ≠ "depends_on" ∧
    ∃ text ∈ value.strings, address.chars ∈ Text.interpolations text.toList

theorem rawId_mem_references {config : Value} (h : address.IsEmbeddedIn config) :
    address.part.rawId ∈ references config.entries := by
  obtain ⟨key, value, hentry, hkey, text, htext, hexpression⟩ := h
  apply mem_references_of_mem_targets hentry hkey htext hexpression
  rw [targets_chars]
  exact List.mem_singleton_self _

end InstanceAddress

/-! ## Edges of dependencies -/

/-- The edge of a listed dependency. -/
def listedEdge (source target : Part) : Diagram.Edge :=
  ⟨source.nodeId, target.nodeId, some "depends on", false⟩

/-- The edge of a reference in an expression. -/
def referenceEdge (source target : Part) : Diagram.Edge :=
  ⟨source.nodeId, target.nodeId, some "referenced by", true⟩

variable {doc : Document} {d : Diagram}

/-- The edges of a resource from one that it has an address of. If the address is listed as a
dependency, the edge comes from the resource that it names, which has the node of the one with the
instances only if all of these are meant. If the address is embedded in another attribute, the edge
comes from the node that is declared for the resource in any case. -/
theorem edges_of_instanceAddress (h : draw doc = .ok d) {type name : String} {config : Value}
    (hi : (type, name, config) ∈ instances (doc.root.getEntries "resource"))
    (address : InstanceAddress) :
    (address.text ∈ (config.get "depends_on").textItems →
      listedEdge address.named (.resource type name) ∈ d.edges) ∧
    (address.named.nodeId = address.part.nodeId ↔ address.selector = .all) ∧
    (address.IsEmbeddedIn config → address.part.rawId ≠ (Part.resource type name).rawId →
      referenceEdge address.part (.resource type name) ∈ d.edges) ∧
    ∀ (i : Nat) (config' : Value), (instances (doc.root.getEntries "resource"))[i]? =
      some (nameText address.root, nameText address.name, config') →
        d.nodeIds[i]? = some address.part.nodeId := by
  have hdrawn : ∀ l ∈ resourceLinks type name config, l.drawn ∈ d.edges := fun l hl =>
    (mem_edges_draw h).mpr (.inl ⟨_, hi, l, hl, rfl⟩)
  refine ⟨fun htext => ?_, address.nodeId_named_eq_iff, fun hembedded hother => ?_, ?_⟩
  · have hedge := hdrawn _ (List.mem_append_left _ (List.mem_map_of_mem htext))
    -- A label is escaped when it is drawn, but there is nothing to escape in it.
    have hlabel : Schematic.label "depends on" = "depends on" := by decide +kernel
    rw [listedEdge, ← address.identifier_addressId_text, ← hlabel]
    exact hedge
  · have hreference : address.part.rawId ∈
        (references config.entries).filter (· != resourceId type name) :=
      List.mem_filter.mpr ⟨address.rawId_mem_references hembedded, bne_iff_ne.mpr hother⟩
    have hedge := hdrawn _ (List.mem_append_right _ (List.mem_map_of_mem hreference))
    have hlabel : Schematic.label "referenced by" = "referenced by" := by decide +kernel
    rw [referenceEdge, ← hlabel]
    exact hedge
  · exact fun i config' hdeclared => getElem?_nodeIds_draw h hdeclared

/-- Two instances, and one that depends on the first of them and refers to it. -/
def numbered : Document where
  format := .terraform
  tree := [("resource", .map [("github_team", .map [
    ("web", .map [("count", .str "2")]),
    ("app", .map [
      ("depends_on", .list [.str "github_team.web[0]"]),
      ("peer", .str "${github_team.web[0]}")])])])]

/-- The address `github_team.web[0]`. -/
def firstWeb : InstanceAddress where
  root := ⟨'g', "ithub_team".toList, by decide, by decide⟩
  name := ⟨'w', "eb".toList, by decide, by decide⟩
  selector := .one "0".toList (by decide) (by decide)
  root_not_mem := by decide
  root_ne_data := by decide
  root_ne_module := by decide

theorem edges_of_instanceAddress_numbered : ∃ d, draw numbered = .ok d ∧
    listedEdge (.resource "github_team" "web_0") (.resource "github_team" "app") ∈ d.edges ∧
    referenceEdge (.resource "github_team" "web") (.resource "github_team" "app") ∈ d.edges ∧
    d.nodeIds[0]? = some (Part.resource "github_team" "web").nodeId := by
  obtain ⟨d, hd⟩ : ∃ d, draw numbered = .ok d := ⟨_, rfl⟩
  have happ := List.mem_of_getElem? (i := 1) (l := instances (numbered.root.getEntries "resource"))
    (a := ("github_team", "app", .map [("depends_on", .list [.str "github_team.web[0]"]),
      ("peer", .str "${github_team.web[0]}")])) rfl
  obtain ⟨hlisted, -, hreferred, hdeclared⟩ := edges_of_instanceAddress hd happ firstWeb
  refine ⟨d, hd, hlisted (by decide), hreferred ?_ (by decide), hdeclared 0 _ rfl⟩
  exact ⟨"peer", _, List.mem_of_getElem? (i := 1) rfl, by decide, _, List.mem_singleton_self _,
    by decide +kernel⟩

/-- The edge of a listed instance does not come from the node of its resource. -/
theorem not_listedEdge_part : ¬∀ (doc : Document) (d : Diagram) (type name : String)
    (config : Value) (address : InstanceAddress), draw doc = .ok d →
      (type, name, config) ∈ instances (doc.root.getEntries "resource") →
      address.text ∈ (config.get "depends_on").textItems →
      listedEdge address.part (.resource type name) ∈ d.edges := by
  intro hall
  obtain ⟨d, hd⟩ : ∃ d, draw numbered = .ok d := ⟨_, rfl⟩
  have hedges : d.edges = [
      listedEdge (.resource "github_team" "web_0") (.resource "github_team" "app"),
      referenceEdge (.resource "github_team" "web") (.resource "github_team" "app")] := by
    cases hd
    decide +kernel
  have hedge := hall numbered d "github_team" "app" _ firstWeb hd
    (List.mem_of_getElem? (i := 1) rfl) (by decide)
  rw [hedges] at hedge
  exact absurd hedge (by decide +kernel)

end Schematic.Drawing.Terraform
