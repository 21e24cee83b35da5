import Schematic.Diagram.Basic
import Schematic.Proofs.Diagram.Word

/-!
# Sound diagrams

What every step of drawing keeps: identifiers and labels are of the right form, groups are opened
one at a time and closed again, nodes have styles of the palette only, and no edge is there twice.
Nodes, groups and connections that are drawn one after the other keep it by induction.

## Main definitions

- `Event.step`, `inGroup?` — whether a group is open after some events
- `IsSound` — a diagram of a palette, with or without an open group

## Main statements

- `isSound_empty`, `IsSound.openGroup`, `IsSound.closeGroup`, `IsSound.node`, `IsSound.edge` —
  one step
- `IsSound.nodes`, `IsSound.group`, `IsSound.links` — many steps
-/

namespace Schematic.Diagram

/-! ## Groups -/

/-- Whether a group is open after an event; a group does not open inside another, and only an
open one is closed. -/
def Event.step (inGroup : Bool) : Event → Option Bool
  | .opened _ _ => if inGroup then none else some true
  | .closed => if inGroup then some false else none
  | .declared _ _ _ => some inGroup

/-- Whether a group is open after all events. -/
def inGroup? (events : List Event) : Option Bool :=
  events.foldlM Event.step false

/-! ## The invariant -/

/-- An event with an identifier and a label of the right form and a style of the palette. -/
def Event.IsSound (styles : List String) : Event → Prop
  | .opened id title => IsNodeId id.toList ∧ IsLabel title.toList
  | .closed => True
  | .declared id label style =>
    IsNodeId id.toList ∧ IsLabel label.toList ∧ ∀ name ∈ style, name ∈ styles

/-- An edge between identifiers with a label of the right form. -/
structure Edge.IsSound (e : Edge) : Prop where
  source : IsNodeId e.source.toList
  target : IsNodeId e.target.toList
  label : ∀ label ∈ e.label, IsLabel label.toList

/-- A diagram of a palette, with or without an open group. -/
structure IsSound (palette : List Style) (inGroup : Bool) (d : Diagram) : Prop where
  direction_eq : d.direction = "TD"
  styles_eq : d.styles = palette.map Style.name
  events : ∀ e ∈ d.events, e.IsSound d.styles
  inGroup?_eq : inGroup? d.events = some inGroup
  edges : ∀ e ∈ d.edges, e.IsSound
  nodup : d.edges.Nodup

/-- A node with a style of a palette, if it has one. -/
def Node.IsStyled (palette : List Style) (n : Node) : Prop :=
  ∀ style ∈ n.style, style ∈ palette

variable {palette : List Style} {inGroup : Bool} {d : Diagram}

theorem isSound_empty (kind : Kind) (palette : List Style) :
    IsSound palette false (empty kind palette) where
  direction_eq := rfl
  styles_eq := rfl
  events := fun _ h => by cases h
  inGroup?_eq := rfl
  edges := fun _ h => by cases h
  nodup := List.nodup_nil

namespace IsSound

/-! ## One step -/

/-- An event of the right form that fits the groups. -/
theorem event (h : IsSound palette inGroup d) (e : Event) (he : e.IsSound d.styles)
    {inGroup' : Bool} (hstep : e.step inGroup = some inGroup') :
    IsSound palette inGroup' { d with events := d.events ++ [e] } where
  direction_eq := h.direction_eq
  styles_eq := h.styles_eq
  events := by
    intro e' he'
    rcases List.mem_append.mp he' with he' | he'
    · exact h.events e' he'
    · exact List.mem_singleton.mp he' ▸ he
  inGroup?_eq := by
    have hgroups : inGroup? (d.events ++ [e]) = (inGroup? d.events).bind fun g => e.step g := by
      rw [inGroup?, List.foldlM_append]
      simp [inGroup?]
    rw [hgroups, h.inGroup?_eq]
    exact hstep
  edges := h.edges
  nodup := h.nodup

theorem openGroup (h : IsSound palette false d) (id title : String) :
    IsSound palette true (d.openGroup id title) :=
  h.event (.opened (identifier id) (label title))
    ⟨isNodeId_identifier id, isLabel_label title⟩ rfl

theorem closeGroup (h : IsSound palette true d) : IsSound palette false d.closeGroup :=
  h.event .closed trivial rfl

theorem node (h : IsSound palette inGroup d) (id : String) (label : List String)
    {style : Option Style} (hstyle : ∀ s ∈ style, s ∈ palette) :
    IsSound palette inGroup (d.node id label (style.map Style.name)) := by
  refine h.event (.declared (identifier id) (Schematic.label (Text.join "\n" label)) _)
    ⟨isNodeId_identifier id, isLabel_label _, ?_⟩ rfl
  intro name hname
  -- An empty class name has been filtered out; what is left is the name of a style.
  obtain ⟨hname, -⟩ := Option.filter_eq_some_iff.mp hname
  obtain ⟨s, hs, rfl⟩ := Option.map_eq_some_iff.mp hname
  rw [h.styles_eq]
  exact List.mem_map_of_mem (hstyle s hs)

theorem edge (h : IsSound palette inGroup d) (source target : String) (label : Option String)
    (dotted : Bool) : IsSound palette inGroup (d.edge source target label dotted) := by
  unfold Diagram.edge
  simp only
  split
  · exact h
  · next hnew =>
    refine ⟨h.direction_eq, h.styles_eq, h.events, h.inGroup?_eq, ?_, ?_⟩
    · intro e he
      rcases List.mem_append.mp he with he | he
      · exact h.edges e he
      · rw [List.mem_singleton.mp he]
        refine ⟨isNodeId_identifier source, isNodeId_identifier target, ?_⟩
        intro text htext
        obtain ⟨raw, -, rfl⟩ := Option.map_eq_some_iff.mp htext
        exact isLabel_label raw
    -- An edge that is there already is not drawn again.
    · rw [List.nodup_append]
      refine ⟨h.nodup, by simp, ?_⟩
      rintro e he e' he' rfl
      exact hnew (List.mem_singleton.mp he' ▸ he)

/-! ## Many steps -/

theorem nodes (h : IsSound palette inGroup d) {ns : List Node}
    (hns : ∀ n ∈ ns, n.IsStyled palette) : IsSound palette inGroup (d.nodes ns) := by
  induction ns generalizing d with
  | nil => exact h
  | cons n ns ih =>
    have hn := h.node n.id n.label (hns n List.mem_cons_self)
    exact ih hn fun m hm => hns m (List.mem_cons_of_mem _ hm)

theorem group (h : IsSound palette false d) (id title : String) {ns : List Node}
    (hns : ∀ n ∈ ns, n.IsStyled palette) : IsSound palette false (d.group id title ns) :=
  ((h.openGroup id title).nodes hns).closeGroup

theorem groupUnlessEmpty (h : IsSound palette false d) (id title : String) {ns : List Node}
    (hns : ∀ n ∈ ns, n.IsStyled palette) :
    IsSound palette false (d.groupUnlessEmpty id title ns) := by
  unfold Diagram.groupUnlessEmpty
  split
  · exact h
  · exact h.group id title hns

theorem links (h : IsSound palette inGroup d) (ls : List Link) :
    IsSound palette inGroup (d.links ls) := by
  induction ls generalizing d with
  | nil => exact h
  | cons l ls ih => exact ih (h.edge l.source l.target l.label l.dotted)

end IsSound

end Schematic.Diagram
