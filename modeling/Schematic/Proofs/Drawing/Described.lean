import Schematic.Document.Parse
import Schematic.Drawing.Terraform
import Schematic.Proofs.Diagram.Drawn
import Schematic.Proofs.Diagram.Word
import Schematic.Proofs.Hcl.Described

/-!
# Drawing descriptions and sources

Blocks with a description or a source are drawn as the same blocks in a tree are, with one
exception: an empty text has no line in the node of its block if it comes from a tree, and one with
two quotes if it comes from blocks.

## Main definitions

- `captionNode` — the node of a block that holds one text
- `captionDocument`, `captionTree` — the documents of such blocks and of their tree form

## Main statements

- `exists_draw_captions`, `exists_draw_captionTree` — what is drawn of both forms
- `event_captionNode_shown` — whether a node is drawn alike
- `details_and_draw_captions` — what is read and drawn of descriptions and sources
-/

namespace Schematic.Drawing.Terraform

open Hcl (Caption CaptionKind captions)

/-! ## Nodes with one text -/

/-- The node of a block that holds one text, which is left out if it is empty. -/
def captionNode (name text : String) : CaptionKind → Diagram.Node
  | .description => ⟨"var_" ++ name, ["<b>" ++ name ++ "</b>", "📝 variable"] ++
      if text = "" then [] else ["ℹ️ " ++ truncate text descriptionLimit], some .inputVariable⟩
  | .source => ⟨"module_" ++ name, ["<b>" ++ name ++ "</b>", "📦 module"] ++
      if text = "" then [] else ["🔗 " ++ text], some .childModule⟩

theorem variableNode_description (name text : String) :
    variableNode name (.map [("description", .str text)]) =
      .ok (captionNode name text .description) := by
  have hget : (Value.map [("description", .str text)]).get "description" = .str text := rfl
  have htype : Detail.line (.map [("description", .str text)]) (.value "🔧 " "type" "") =
      .ok [] := rfl
  rw [variableNode, htype]
  by_cases htext : text = ""
  · subst htext
    rfl
  · simp only [hget, Value.getText, Value.scalarText, Value.text, Value.isTruthy, captionNode]
    simp [htext]
    rfl

theorem moduleNode_source {config : Value} {text : String} (name : String)
    (h : config.get "source" = .str text) :
    moduleNode name config = .ok (captionNode name text .source) := by
  rw [moduleNode, Value.getText, h]
  rfl

/-! ## Diagrams of such nodes -/

/-- What is drawn of a group, if it has nodes. -/
def groupEvents (id title : String) (ns : List Diagram.Node) : List Diagram.Event :=
  if ns.isEmpty then []
  else .opened (identifier id) (label title) :: (ns.map Diagram.Node.event ++ [.closed])

theorem events_groupUnlessEmpty (d : Diagram) (id title : String) (ns : List Diagram.Node) :
    (d.groupUnlessEmpty id title ns).events = d.events ++ groupEvents id title ns := by
  rw [Diagram.groupUnlessEmpty, groupEvents]
  split
  · rw [List.append_nil]
  · rw [Diagram.events_group]

theorem groupEvents_inj {id title : String} {ns ns' : List Diagram.Node} :
    groupEvents id title ns = groupEvents id title ns' ↔
      ns.map Diagram.Node.event = ns'.map Diagram.Node.event := by
  cases ns with
  | nil => cases ns' <;> simp [groupEvents]
  | cons n ns => cases ns' <;> simp [groupEvents]

/-- What is drawn of variables or modules. -/
def captionEvents (kind : CaptionKind) (ns : List Diagram.Node) : List Diagram.Event :=
  match kind with
  | .description => groupEvents "Variables" "📝 Variables" ns
  | .source => groupEvents "Modules" "📦 Modules" ns

theorem captionEvents_inj {kind : CaptionKind} {ns ns' : List Diagram.Node} :
    captionEvents kind ns = captionEvents kind ns' ↔
      ns.map Diagram.Node.event = ns'.map Diagram.Node.event := by
  cases kind <;> exact groupEvents_inj

variable {doc : Document}

/-- Without resources and data sources, variables and modules are all that is drawn. -/
theorem exists_draw_eq_ok {inputs : Entries Value} {vs ms : List Diagram.Node}
    (hresources : doc.root.getEntries "resource" = []) (hdata : doc.root.getEntries "data" = [])
    (hinputs : inputVariables doc = .ok inputs)
    (hvs : inputs.mapM (fun e : String × Value => variableNode e.1 e.2) = .ok vs)
    (hms : (doc.root.getEntries "module").mapM (fun e : String × Value => moduleNode e.1 e.2) =
      .ok ms) :
    ∃ d, draw doc = .ok d ∧ d.events =
      groupEvents "Variables" "📝 Variables" vs ++ groupEvents "Modules" "📦 Modules" ms := by
  have hnone : (instances (doc.root.getEntries "resource")).mapM
      (fun i : String × String × Value => resourceNode i.1 i.2.1 i.2.2) = .ok [] := by
    rw [hresources]
    rfl
  refine ⟨_, bind_eq_ok hinputs (bind_eq_ok hvs (bind_eq_ok hnone (bind_eq_ok hms rfl))), ?_⟩
  simp only [Diagram.events_links, events_groupUnlessEmpty, Diagram.events_empty, hdata,
    List.nil_append]
  rfl

/-! ## Both forms -/

variable (kind : CaptionKind) (ts : List Caption)

/-- The nodes of captions, with what is shown of their texts. -/
def captionNodes (shown : Caption → List Char) : List Diagram.Node :=
  ts.map fun t => captionNode (String.ofList t.name) (String.ofList (shown t)) kind

theorem mapM_map_eq_ok {f : String × Value → Except NumberError Diagram.Node}
    {entry : Caption → String × Value} {node : Caption → Diagram.Node} {ts : List Caption}
    (h : ∀ t ∈ ts, f (entry t) = .ok (node t)) : (ts.map entry).mapM f = .ok (ts.map node) := by
  rw [mapM_eq_ok_iff, List.forall₂_map_left_iff, List.forall₂_map_right_iff, List.forall₂_same]
  exact h

theorem mapM_variableNode (shown : Caption → List Char) :
    (ts.map (Caption.entry fun t => .map [("description", .str (String.ofList (shown t)))])).mapM
      (fun e : String × Value => variableNode e.1 e.2) =
        .ok (captionNodes .description ts shown) :=
  mapM_map_eq_ok fun t _ => variableNode_description (String.ofList t.name) _

theorem mapM_moduleNode {config : Caption → Value} {shown : Caption → List Char}
    (h : ∀ t, (config t).get "source" = .str (String.ofList (shown t))) :
    (ts.map (Caption.entry config)).mapM (fun e : String × Value => moduleNode e.1 e.2) =
      .ok (captionNodes .source ts shown) :=
  mapM_map_eq_ok fun t _ => moduleNode_source (String.ofList t.name) (h t)

/-- The blocks as a tree. -/
def captionTree : Document where
  format := .terraform
  source := .json
  tree := [(kind.keyword, .map (ts.map (Caption.entry fun t =>
    .map [(String.ofList kind.key.chars, .str (String.ofList t.text))])))]

/-- What is drawn of the tree. -/
theorem exists_draw_captionTree : ∃ d, draw (captionTree kind ts) = .ok d ∧
    d.events = captionEvents kind (captionNodes kind ts Caption.text) := by
  cases kind with
  | description =>
    obtain ⟨d, hdraw, hevents⟩ := @exists_draw_eq_ok (captionTree .description ts) _ _ _ rfl rfl rfl
      (mapM_variableNode ts Caption.text) rfl
    exact ⟨d, hdraw, hevents.trans (List.append_nil _)⟩
  | source =>
    have hsource (t : Caption) :
        (Value.map [("source", .str (String.ofList t.text))]).get "source" =
          .str (String.ofList t.text) := rfl
    exact @exists_draw_eq_ok (captionTree .source ts) _ _ _ rfl rfl rfl rfl
      (mapM_moduleNode ts hsource)

theorem getEntries_filled (key : String) (entries : Entries Value) :
    (Value.map (Hcl.filled key entries)).getEntries key = entries := by
  rw [Hcl.filled]
  split
  · next hempty => exact (List.isEmpty_iff.mp hempty).symm
  · rw [Value.getEntries, Value.get, Value.entries, Entries.get?, if_pos rfl]
    rfl

theorem getEntries_filled_of_ne {key other : String} (h : other ≠ key) (entries : Entries Value) :
    (Value.map (Hcl.filled key entries)).getEntries other = [] := by
  rw [Hcl.filled]
  split
  · rfl
  · rw [Value.getEntries, Value.get, Value.entries, Entries.get?, if_neg (Ne.symm h)]
    rfl

section Document

variable (entries : Entries Value)

/-- The document of the blocks, with their entries in its tree. -/
def captionDocument : Document where
  format := .terraform
  tree := Hcl.filled kind.keyword entries
  source := .hcl
  text := String.ofList (captions kind ts)

theorem getEntries_captionDocument :
    (captionDocument kind ts entries).root.getEntries kind.keyword = entries :=
  getEntries_filled kind.keyword entries

/-- The document has no other section. -/
theorem getEntries_captionDocument_of_ne {key : String} (h : key ≠ kind.keyword) :
    (captionDocument kind ts entries).root.getEntries key = [] :=
  getEntries_filled_of_ne h entries

variable {kind ts entries}

theorem ofBlocks_captions
    (h : Hcl.configuration (captions kind ts) = .ok (Hcl.filled kind.keyword entries)) :
    Parse.ofBlocks (String.ofList (captions kind ts)) = .ok (captionDocument kind ts entries) := by
  rw [Parse.ofBlocks, String.toList_ofList, h]
  rfl

/-- Modules are no variables. -/
theorem inputVariables_sources : inputVariables (captionDocument .source ts entries) = .ok [] := by
  have hblocks : Hcl.blocks "variable" (captions .source ts) = [] :=
    Hcl.blocks_captions_of_ne .source ts rfl ⟨by decide, by decide⟩ (by decide)
  have hdetails : Hcl.variableDetails (captions .source ts) = .ok [] := by
    rw [Hcl.variableDetails, hblocks]
    rfl
  rw [inputVariables, getEntries_captionDocument_of_ne .source ts entries (by decide)]
  simp only [captionDocument, String.toList_ofList, hdetails]
  rfl

end Document

variable {ts}

/-- The details of the variables are read from the text. -/
theorem inputVariables_descriptions (h : (ts.map Caption.name).Nodup) :
    inputVariables (captionDocument .description ts
        (ts.map (Caption.entry fun t => Hcl.named (String.ofList t.name)))) =
      .ok (ts.map (Caption.entry fun t =>
        .map [("description", .str (String.ofList t.shown))])) := by
  have hdetails := Hcl.variableDetails_captions h
  have hnodup := Hcl.nodup_keys_entries
    (fun t => .map [("description", Value.str (String.ofList t.shown))]) h
  have hdeclared (entries : Entries Value) :
      (captionDocument .description ts entries).root.getEntries "variable" = entries :=
    getEntries_captionDocument .description ts entries
  rw [inputVariables, hdeclared]
  simp only [captionDocument, String.toList_ofList, if_pos]
  refine bind_eq_ok hdetails (congrArg Except.ok ?_)
  rw [List.map_map]
  -- No two names are the same, so each variable finds the details of its own block.
  refine List.map_congr_left fun t ht => ?_
  have hget := (Entries.get?_eq_some_iff hnodup).mpr (List.mem_map_of_mem ht)
  simp only [Function.comp_apply, Caption.entry] at hget ⊢
  rw [hget]
  rfl

/-- What is drawn of the blocks. -/
theorem exists_draw_captions (h : (ts.map Caption.name).Nodup) : ∃ doc d,
    Parse.ofBlocks (String.ofList (captions kind ts)) = .ok doc ∧ draw doc = .ok d ∧
      d.events = captionEvents kind (captionNodes kind ts Caption.shown) := by
  cases kind with
  | description =>
    have hother {key : String} (hkey : key ≠ "variable") :=
      getEntries_captionDocument_of_ne .description ts
        (ts.map (Caption.entry fun t => Hcl.named (String.ofList t.name))) hkey
    obtain ⟨d, hdraw, hevents⟩ := exists_draw_eq_ok (hother (by decide)) (hother (by decide))
      (inputVariables_descriptions h) (mapM_variableNode ts Caption.shown)
      (by rw [hother (by decide)]; rfl)
    exact ⟨_, d, ofBlocks_captions (Hcl.configuration_descriptions h), hdraw,
      hevents.trans (List.append_nil _)⟩
  | source =>
    have hother {key : String} (hkey : key ≠ "module") (entries : Entries Value) :=
      getEntries_captionDocument_of_ne .source ts entries hkey
    have hsource (t : Caption) : (Value.map [("name", .str (String.ofList t.name)),
        ("source", .str (String.ofList t.shown))]).get "source" =
          .str (String.ofList t.shown) := rfl
    have hmodules := (congrArg _ (getEntries_captionDocument .source ts _)).trans
      (mapM_moduleNode ts hsource)
    obtain ⟨d, hdraw, hevents⟩ := exists_draw_eq_ok (hother (by decide) _) (hother (by decide) _)
      inputVariables_sources rfl hmodules
    exact ⟨_, d, ofBlocks_captions (Hcl.configuration_sources h), hdraw, hevents⟩

/-! ## Labels -/

/-- What follows the name in the text of a node. -/
def captionTail (text : String) : CaptionKind → String
  | .description => "</b>" ++ "\n" ++ "📝 variable" ++
      if text = "" then "" else "\n" ++ ("ℹ️ " ++ truncate text descriptionLimit)
  | .source => "</b>" ++ "\n" ++ "📦 module" ++
      if text = "" then "" else "\n" ++ ("🔗 " ++ text)

theorem join_captionNode (name text : String) (kind : CaptionKind) :
    Text.join "\n" (captionNode name text kind).label =
      "<b>" ++ (name ++ captionTail text kind) := by
  have hpair (a b : String) : Text.join "\n" [a, b] = a ++ "\n" ++ b := rfl
  have htriple (a b c : String) : Text.join "\n" [a, b, c] = a ++ "\n" ++ b ++ "\n" ++ c := rfl
  by_cases htext : text = "" <;> cases kind <;>
    simp only [captionNode, captionTail, htext, if_pos, if_false, List.cons_append,
      List.nil_append, List.append_nil, hpair, htriple, String.append_assoc, String.append_empty]

/-- The label of a name in markup and what follows it. -/
theorem toList_label {tail : String} (hhead : tail.toList.head? = some '<') {c : Char}
    (hlast : (Label.escape tail.toList).getLast? = some c) (hc : Text.isBlank c = false)
    (name : String) : (label ("<b>" ++ (name ++ tail))).toList =
      "<b>".toList ++ (Label.escape name.toList ++ Label.escape tail.toList) := by
  -- What follows the name is no line feed, so a carriage return at its end stays alone.
  have hescape : Label.escape ("<b>" ++ (name ++ tail)).toList =
      "<b>".toList ++ (Label.escape name.toList ++ Label.escape tail.toList) := by
    rw [String.toList_append, String.toList_append,
      ← Label.escape_append (by rw [hhead]; decide) name.toList]
    rfl
  rw [label, String.toList_ofList, hescape]
  refine Text.trim_eq_self (fun c hc => ?_) fun d hd => ?_
  · cases hc
    rfl
  · rw [List.getLast?_append, List.getLast?_append, hlast] at hd
    cases hd
    exact hc

/-- An empty text is left out, two quotes are shown. -/
theorem event_captionNode_quotes (name : String) (kind : CaptionKind) :
    (captionNode name "\"\"" kind).event ≠ (captionNode name "" kind).event := by
  intro h
  -- Up to the name the labels are the same; what follows it ends in different characters.
  have hlabel := congrArg String.toList (Diagram.Event.declared.inj h).2.1
  have hhead (text : String) : (captionTail text kind).toList.head? = some '<' := by
    cases kind <;> simp [captionTail]
  have hempty : (Label.escape (captionTail "" kind).toList).getLast? = some 'e' := by
    cases kind <;> decide +kernel
  have hquotes : (Label.escape (captionTail "\"\"" kind).toList).getLast? = some ';' := by
    cases kind <;> decide +kernel
  rw [join_captionNode, join_captionNode, toList_label (hhead _) hquotes (by decide),
    toList_label (hhead _) hempty (by decide), List.append_cancel_left_eq,
    List.append_cancel_left_eq] at hlabel
  rw [hlabel, hempty] at hquotes
  cases hquotes

/-- A text is drawn as it is, unless it is empty. -/
theorem event_captionNode_shown (kind : CaptionKind) (t : Caption) :
    (captionNode (String.ofList t.name) (String.ofList t.shown) kind).event =
        (captionNode (String.ofList t.name) (String.ofList t.text) kind).event ↔ t.text ≠ [] := by
  rw [Caption.shown]
  split
  · next htext =>
    rw [htext]
    exact iff_of_false (event_captionNode_quotes _ kind) (absurd rfl)
  · next htext => exact iff_of_true rfl htext

/-! ## What is read and drawn -/

/-- Descriptions and sources are read as their texts are, and drawn as those of a tree, unless one
is empty. -/
theorem details_and_draw_captions (h : (ts.map Caption.name).Nodup) :
    Hcl.variableDetails (captions .description ts) = .ok (ts.map (Caption.entry fun t =>
        .map [("description", .str (String.ofList t.shown))])) ∧
      Hcl.configuration (captions .source ts) = .ok (Hcl.filled "module" (ts.map
        (Caption.entry fun t => .map [("name", .str (String.ofList t.name)),
          ("source", .str (String.ofList t.shown))]))) ∧
      ∀ kind, ∃ doc d d', Parse.ofBlocks (String.ofList (captions kind ts)) = .ok doc ∧
        draw doc = .ok d ∧ draw (captionTree kind ts) = .ok d' ∧
          (d.events = d'.events ↔ ∀ t ∈ ts, t.text ≠ []) := by
  refine ⟨Hcl.variableDetails_captions h, Hcl.configuration_sources h, fun kind => ?_⟩
  obtain ⟨doc, d, hdoc, hdraw, hevents⟩ := exists_draw_captions kind h
  obtain ⟨d', hdraw', hevents'⟩ := exists_draw_captionTree kind ts
  refine ⟨doc, d, d', hdoc, hdraw, hdraw', ?_⟩
  rw [hevents, hevents', captionEvents_inj, captionNodes, captionNodes, List.map_map, List.map_map,
    List.map_inj_left]
  exact forall₂_congr fun t _ => event_captionNode_shown kind t

/-- A caption with a text and one without. -/
def regionCaption : Caption :=
  ⟨"region".toList, "Where # it \x7bruns\x7d".toList, by decide, by decide⟩

def emptyCaption : Caption :=
  ⟨"n".toList, [], by decide, by decide⟩

example : captions .description [regionCaption] =
    "variable \"region\" \x7b\n  description = \"Where # it \x7bruns\x7d\"\n\x7d\n".toList := by
  decide

theorem details_and_draw_captions_withEmpty :
    ([regionCaption, emptyCaption].map Caption.name).Nodup ∧
      Hcl.variableDetails (captions .description [regionCaption, emptyCaption]) =
        .ok [("region", .map [("description", .str "Where # it \x7bruns\x7d")]),
          ("n", .map [("description", .str "\"\"")])] ∧
      Hcl.configuration (captions .source [regionCaption, emptyCaption]) = .ok [("module", .map
        [("region", .map [("name", .str "region"), ("source", .str "Where # it \x7bruns\x7d")]),
          ("n", .map [("name", .str "n"), ("source", .str "\"\"")])])] ∧
      ∀ kind, ∃ doc d d',
        Parse.ofBlocks (String.ofList (captions kind [regionCaption, emptyCaption])) = .ok doc ∧
          draw doc = .ok d ∧ draw (captionTree kind [regionCaption, emptyCaption]) = .ok d' ∧
            (d.events = d'.events ↔ ∀ t ∈ [regionCaption, emptyCaption], t.text ≠ []) := by
  have hnodup : ([regionCaption, emptyCaption].map Caption.name).Nodup := by decide
  exact ⟨hnodup, details_and_draw_captions hnodup⟩

/-- An empty description or source stays in its quotes. -/
theorem not_details_captions :
    (¬ ∀ t : Caption, Hcl.variableDetails (captions .description [t]) =
        .ok [t.entry fun t => .map [("description", .str (String.ofList t.text))]]) ∧
      ¬ ∀ t : Caption, Hcl.configuration (captions .source [t]) =
        .ok (Hcl.filled "module" [t.entry fun t => .map
          [("name", .str (String.ofList t.name)), ("source", .str (String.ofList t.text))]]) := by
  refine ⟨fun h => ?_, fun h => ?_⟩
  · have hread := h emptyCaption
    rw [@Hcl.variableDetails_captions [emptyCaption] (by decide)] at hread
    simp [Caption.entry, Caption.shown, emptyCaption, Hcl.inQuotes] at hread
  · have hread := h emptyCaption
    rw [@Hcl.configuration_sources [emptyCaption] (by decide)] at hread
    simp [Caption.entry, Caption.shown, emptyCaption, Hcl.filled, Hcl.inQuotes] at hread

end Schematic.Drawing.Terraform
