import Schematic.Proofs.Diagram.Drawn
import Schematic.Proofs.Diagram.Line

/-!
# Legible diagrams

What the text of a diagram needs so that its lines can be told apart: identifiers, labels and
class names of the right form. Every step of drawing keeps it, in any order and also with groups
inside of groups, so whatever is drawn step by step is legible. Nothing in a legible diagram has a
line end in it, hence the lines of its markup are those that were drawn.

## Main definitions

- `IsLegible` — a diagram whose parts are of the right form
- `Step`, `ofSteps` — the steps of drawing, and what is drawn by them

## Main statements

- `isLegible_ofSteps` — every diagram that is drawn step by step is legible
- `IsLegible.render_eq_ok`, `IsLegible.splitAtChar_markup` — its markup and the lines of it
-/

namespace Schematic.Diagram

/-- The class names of all styles. -/
def classNames : List String :=
  Style.all.map Style.name

theorem name_mem_classNames (style : Style) : style.name ∈ classNames := by
  cases style <;> decide

/-- A diagram of a palette whose identifiers, labels and class names are of the right form. -/
structure IsLegible (palette : List Style) (d : Diagram) : Prop where
  direction_eq : d.direction = "TD"
  styles_eq : d.styles = palette.map Style.name
  events : ∀ e ∈ d.events, e.IsSound classNames
  edges : ∀ e ∈ d.edges, e.IsSound

/-! ## Steps -/

/-- A step of drawing. -/
inductive Step where
  | openGroup (id title : String)
  | closeGroup
  | node (id : String) (label : List String) (style : Option Style)
  | edge (source target : String) (label : Option String) (dotted : Bool)
deriving DecidableEq, Repr

/-- The diagram after a step. -/
def step (d : Diagram) : Step → Diagram
  | .openGroup id title => d.openGroup id title
  | .closeGroup => d.closeGroup
  | .node id label style => d.node id label (style.map Style.name)
  | .edge source target label dotted => d.edge source target label dotted

/-- What is drawn by steps one after the other. -/
def ofSteps (kind : Kind) (palette : List Style) (steps : List Step) : Diagram :=
  steps.foldl step (empty kind palette)

/-- The edge of a connection has identifiers and a label of the right form. -/
theorem Link.isSound_drawn (l : Link) : l.drawn.IsSound where
  source := isNodeId_identifier l.source
  target := isNodeId_identifier l.target
  label := by
    intro text htext
    obtain ⟨raw, -, rfl⟩ := Option.map_eq_some_iff.mp htext
    exact isLabel_label raw

namespace IsLegible

variable {palette : List Style} {d : Diagram}

/-- One more event of the right form. -/
theorem event (h : IsLegible palette d) {e : Event} (he : e.IsSound classNames) :
    IsLegible palette { d with events := d.events ++ [e] } where
  direction_eq := h.direction_eq
  styles_eq := h.styles_eq
  events := List.forall_mem_append.mpr ⟨h.events, List.forall_mem_singleton.mpr he⟩
  edges := h.edges

theorem edge (h : IsLegible palette d) (source target : String) (label : Option String)
    (dotted : Bool) : IsLegible palette (d.edge source target label dotted) := by
  have hedges : ∀ e ∈ (d.edge source target label dotted).edges, e.IsSound := by
    intro e he
    rcases (mem_edges_edge d (l := ⟨source, target, label, dotted⟩)).mp he with he | rfl
    · exact h.edges e he
    · exact Link.isSound_drawn _
  -- Whether or not the edge is there already, nothing but the edges changes.
  unfold Diagram.edge at hedges ⊢
  simp only at hedges ⊢
  split at hedges
  · next hold =>
    rw [if_pos hold]
    exact h
  · next hnew =>
    rw [if_neg hnew]
    exact ⟨h.direction_eq, h.styles_eq, h.events, hedges⟩

theorem step (h : IsLegible palette d) (s : Step) : IsLegible palette (d.step s) := by
  cases s with
  | openGroup id title => exact h.event ⟨isNodeId_identifier id, isLabel_label title⟩
  | closeGroup => exact h.event trivial
  | node id label style =>
    refine h.event ⟨isNodeId_identifier id, isLabel_label _, ?_⟩
    intro name hname
    -- An empty class name would be left out, but no style has one.
    obtain ⟨hname, -⟩ := Option.filter_eq_some_iff.mp hname
    obtain ⟨s, -, rfl⟩ := Option.map_eq_some_iff.mp hname
    exact name_mem_classNames s
  | edge source target label dotted => exact h.edge source target label dotted

end IsLegible

theorem isLegible_empty (kind : Kind) (palette : List Style) :
    IsLegible palette (empty kind palette) where
  direction_eq := rfl
  styles_eq := rfl
  events := fun _ h => by cases h
  edges := fun _ h => by cases h

/-- Every diagram that is drawn step by step is legible. -/
theorem isLegible_ofSteps (kind : Kind) (palette : List Style) (steps : List Step) :
    IsLegible palette (ofSteps kind palette steps) := by
  have hsteps (d : Diagram) (h : IsLegible palette d) :
      IsLegible palette (steps.foldl step d) := by
    induction steps generalizing d with
    | nil => exact h
    | cons s steps ih => exact ih (d.step s) (h.step s)
  exact hsteps _ (isLegible_empty kind palette)

/-- Drawing changes neither the kind of a diagram nor anything else of its frame. -/
theorem kind_ofSteps (kind : Kind) (palette : List Style) (steps : List Step) :
    (ofSteps kind palette steps).kind = kind := by
  have hstep (d : Diagram) (s : Step) : (d.step s).kind = d.kind := by
    cases s with
    | edge source target label dotted =>
      unfold step edge
      simp only
      split <;> rfl
    | _ => rfl
  have hsteps (d : Diagram) : (steps.foldl step d).kind = d.kind := by
    induction steps generalizing d with
    | nil => rfl
    | cons s steps ih => rw [List.foldl_cons, ih, hstep]
  exact hsteps _

/-! ## Final identifiers of groups -/

theorem isAllowed_candidate {id : String} (hid : ∀ c ∈ id.toList, Identifier.isAllowed c = true)
    (n : Nat) : ∀ c ∈ (candidate id n).toList, Identifier.isAllowed c = true := by
  have hgroup : ∀ c ∈ "_group".toList, Identifier.isAllowed c = true := by decide
  match n with
  | 0 => exact hid
  | 1 =>
    rw [candidate, String.toList_append]
    exact List.forall_mem_append.mpr ⟨hid, hgroup⟩
  | n + 2 =>
    have hdigits : ∀ c ∈ (toString (n + 2)).toList, Identifier.isAllowed c = true := by
      rw [Nat.toString_eq_repr, Nat.repr_eq_ofList_toDigits, String.toList_ofList]
      intro c hc
      have hdigit := Nat.isDigit_of_mem_toDigits (by decide) (by decide) hc
      simp [Identifier.isAllowed, Char.isAlphanum, hdigit]
    rw [candidate, String.toList_append, String.toList_append]
    exact List.forall_mem_append.mpr ⟨List.forall_mem_append.mpr ⟨hid, hgroup⟩, hdigits⟩

theorem freshId_eq_candidate (taken : List String) (id : String) :
    ∃ n, freshId taken id = candidate id n := by
  unfold freshId
  simp only
  cases hfind : ((List.range (taken.length + 1)).map (candidate id)).find?
      fun c => !taken.contains c with
  -- A search that fails falls back on what was asked for, which is the first candidate.
  | none => exact ⟨0, rfl⟩
  | some c =>
    obtain ⟨n, -, hn⟩ := List.mem_map.mp (List.mem_of_find?_eq_some hfind)
    exact ⟨n, hn.symm⟩

theorem isAllowed_freshIds {ids : List String}
    (hids : ∀ id ∈ ids, ∀ c ∈ id.toList, Identifier.isAllowed c = true) (taken : List String) :
    ∀ id ∈ freshIds taken ids, ∀ c ∈ id.toList, Identifier.isAllowed c = true := by
  induction ids generalizing taken with
  | nil => simp [freshIds]
  | cons id ids ih =>
    rw [List.forall_mem_cons] at hids
    rw [freshIds, List.forall_mem_cons]
    refine ⟨?_, ih hids.2 _⟩
    obtain ⟨n, hn⟩ := freshId_eq_candidate taken id
    rw [hn]
    exact isAllowed_candidate hids.1 n

/-- Groups have identifiers of allowed characters, whatever they are renamed to. -/
theorem IsLegible.isAllowed_groupIds {palette : List Style} {d : Diagram}
    (h : IsLegible palette d) :
    ∀ id ∈ d.groupIds, ∀ c ∈ id.toList, Identifier.isAllowed c = true := by
  apply isAllowed_freshIds
  intro id hid
  obtain ⟨e, he, heid⟩ := List.mem_filterMap.mp hid
  have hsound := h.events e he
  cases e with
  | opened i title =>
    obtain rfl := Option.some.inj heid
    exact hsound.1.isAllowed
  | closed => cases heid
  | declared i label style => cases heid

/-! ## Lines without line ends -/

theorem feed_not_mem_bodyLines {events : List Event} (hevents : ∀ e ∈ events, e.IsSound classNames)
    {groups : List String} (hgroups : ∀ id ∈ groups, '\n' ∉ id.toList) (depth : Nat) :
    ∀ line ∈ bodyLines depth groups events, '\n' ∉ line.toList := by
  induction events generalizing depth groups with
  | nil => simp [bodyLines]
  | cons e events ih =>
    have he := hevents e List.mem_cons_self
    have hrest := fun e' he' => hevents e' (List.mem_cons_of_mem _ he')
    cases e with
    | opened id title =>
      -- Out of final identifiers, a group would keep the one of its event.
      have hid : '\n' ∉ (groups.head?.getD id).toList := by
        cases groups with
        | nil => exact he.1.feed_not_mem
        | cons group groups => exact hgroups group List.mem_cons_self
      have htail := fun id hmem => hgroups id (List.mem_of_mem_tail hmem)
      rw [bodyLines, List.forall_mem_cons, toList_groupLine]
      exact ⟨feed_not_mem_wordLine depth (by decide) (feed_not_mem_labelled hid he.2.2),
        ih hrest htail _⟩
    | closed =>
      rw [bodyLines, List.forall_mem_cons, String.toList_append, toList_indent, List.mem_append]
      exact ⟨not_or.mpr ⟨feed_not_mem_replicate _, by decide⟩, ih hrest hgroups _⟩
    | declared id label style =>
      obtain ⟨hid, hlabel, hstyle⟩ := he
      rw [bodyLines, List.cons_append, List.forall_mem_cons, toList_nodeLine]
      refine ⟨feed_not_mem_nodeLine depth hid hlabel, List.forall_mem_append.mpr ⟨?_, ?_⟩⟩
      · intro line hline
        obtain ⟨name, hname, rfl⟩ := List.mem_map.mp hline
        obtain ⟨s, -, rfl⟩ := List.mem_map.mp (hstyle name (Option.mem_toList.mp hname))
        have hfeed : '\n' ∉ s.name.toList := feed_not_mem_name s
        rw [toList_classLine]
        apply feed_not_mem_wordLine depth (by decide)
        rw [List.mem_append, List.mem_cons]
        exact not_or.mpr ⟨hid.feed_not_mem, not_or.mpr ⟨by decide, hfeed⟩⟩
      · exact ih hrest hgroups depth

namespace IsLegible

variable {palette : List Style} {d : Diagram}

theorem feed_not_mem (h : IsLegible palette d) : ∀ line ∈ d.lines, '\n' ∉ line.toList := by
  have hgroups : ∀ id ∈ d.groupIds, '\n' ∉ id.toList :=
    fun id hid => Text.not_mem_of_class (h.isAllowed_groupIds id hid) (by decide)
  have hstyles : ∀ line ∈ d.styleLines, '\n' ∉ line.toList := by
    unfold styleLines
    split
    · simp
    · rw [List.forall_mem_cons]
      exact ⟨by decide, List.forall_mem_map.mpr fun style _ => feed_not_mem_styleLine style⟩
  rw [lines, h.direction_eq, List.cons_append, List.cons_append, List.forall_mem_cons,
    List.forall_mem_append, List.forall_mem_append]
  refine ⟨?_, ⟨feed_not_mem_bodyLines h.events hgroups 1, ?_⟩, hstyles⟩
  -- The header comes in two kinds only.
  · cases d.kind <;> decide
  · exact List.forall_mem_map.mpr fun e he => feed_not_mem_edgeLine (h.edges e he)

/-- The lines of the markup; the line feed at its end leaves an empty piece behind them. -/
theorem splitAtChar_markup (h : IsLegible palette d) :
    Text.splitAtChar '\n' d.markup.toList = d.lines.map String.toList ++ [[]] := by
  have hne : d.lines ≠ [] := List.cons_ne_nil _ _
  rw [markup, Text.toList_join_feed hne]
  exact Text.splitAtChar_unlines (List.forall_mem_map.mpr h.feed_not_mem)

/-- All styles of the palette have a definition. -/
theorem filterMap_named? (h : IsLegible palette d) :
    d.styles.filterMap Style.named? = palette := by
  have hnamed : (Style.named? ∘ Style.name) = some := funext Style.named?_name
  rw [h.styles_eq, List.filterMap_map, hnamed, List.filterMap_some]

/-- No style is missing. -/
theorem render_eq_ok (h : IsLegible palette d) : d.render = .ok d.markup := by
  have hfind : d.styles.find? (fun name => (Style.named? name).isNone) = none := by
    rw [h.styles_eq, List.find?_eq_none]
    intro name hname
    obtain ⟨style, -, rfl⟩ := List.mem_map.mp hname
    simp
  rw [render, hfind]

end IsLegible

end Schematic.Diagram
