import Schematic.Proofs.Success
import Schematic.Yaml.Reader

/-!
# Reading YAML with more room

The composer looks at the room in one place only, in front of a node, and the reader once more when
all aliases stand for what they name. Everything else is the same whatever the room, so the
functions that call each other come to the same with more room, unless there was too little before.

## Main definitions

- `Composer.Same` — readings that come to the same from every state, unless there is too little room
- `Composer.AreSame` — what all functions for nodes have in common up to a fuel

## Main statements

- `Composer.areSame` — all functions for nodes come to the same
- `sameUnless_read` — the whole text
-/

namespace Schematic.Yaml

namespace Composer

variable {α β : Type}

/-- Readings that come to the same from every state, unless the first has too little room. -/
def Same (x y : Composer α) : Prop :=
  ∀ s, SameUnless (· = .tooDeep) (x.run s) (y.run s)

namespace Same

variable {x y : Composer α}

theorem refl (x : Composer α) : Same x x :=
  fun s => .refl (x.run s)

theorem throw_tooDeep : Same (throw .tooDeep) y :=
  fun _ => .of_error rfl

theorem bind (h : Same x y) {f g : α → Composer β} (hf : ∀ a, Same (f a) (g a)) :
    Same (x >>= f) (y >>= g) :=
  fun s => (h s).bind fun found => hf found.1 found.2

/-- A first part that has nothing to do with the room. -/
theorem after (x : Composer α) {f g : α → Composer β} (hf : ∀ a, Same (f a) (g a)) :
    Same (x >>= f) (x >>= g) :=
  (refl x).bind hf

theorem ite {c : Prop} [Decidable c] {x' y' : Composer α} (h : Same x y) (h' : Same x' y') :
    Same (if c then x else x') (if c then y else y') := by
  split
  · exact h
  · exact h'

/-- A step that is left out or may fail, in front of the same. -/
theorem guarded {c d : Prop} [Decidable c] [Decidable d] {step : Composer Unit} {e : ReadError}
    {f g : Unit → Composer α} (hf : ∀ u, Same (f u) (g u)) :
    Same (if c then if d then step >>= f else throw e >>= f else f ())
      (if c then if d then step >>= g else throw e >>= g else g ()) :=
  .ite (.ite (.after _ hf) (.after _ hf)) (hf ())

/-- A collection is the same if its content is. -/
theorem collection {start : Mark} {props : Properties} {place : Place} {shape : Shape}
    {content content' : Place → Composer (Tag → Node)}
    (h : ∀ inner, Same (content inner) (content' inner)) :
    Same (Composer.collection start props place shape content)
      (Composer.collection start props place shape content') :=
  after _ fun _ => (h _).bind fun _ => refl _

end Same

/-! ## Nodes -/

/-- The functions for nodes come to the same with more room, up to a fuel. -/
structure AreSame (limit more : Nat) (context : Context) (fuel : Nat) : Prop where
  node : ∀ place, Same (node limit context fuel place) (node more context fuel place)
  blockItems : ∀ start place,
    Same (blockItems limit context fuel start place) (blockItems more context fuel start place)
  flushItems : ∀ place,
    Same (flushItems limit context fuel place) (flushItems more context fuel place)
  blockEntries : ∀ start place,
    Same (blockEntries limit context fuel start place) (blockEntries more context fuel start place)
  flowValue : ∀ close place,
    Same (flowValue limit context fuel close place) (flowValue more context fuel close place)
  flowKey : ∀ close stop place,
    Same (flowKey limit context fuel close stop place) (flowKey more context fuel close stop place)
  flowItems : ∀ start isFirst place,
    Same (flowItems limit context fuel start isFirst place)
      (flowItems more context fuel start isFirst place)
  flowEntries : ∀ start isFirst place,
    Same (flowEntries limit context fuel start isFirst place)
      (flowEntries more context fuel start isFirst place)

variable {limit more : Nat} {context : Context} {fuel : Nat}

/-- Without fuel nothing is read. -/
theorem areSame_zero : AreSame limit more context 0 := by
  constructor <;> intros <;> exact .throw_tooDeep

section Step

variable (ih : AreSame limit more context fuel)

include ih

theorem same_node (h : limit ≤ more) (place : Place) :
    Same (node limit context (fuel + 1) place) (node more context (fuel + 1) place) := by
  rw [node, node]
  by_cases hlimit : limit < place.depth
  · rw [if_pos hlimit]
    exact .throw_tooDeep
  · rw [if_neg hlimit, if_neg fun hmore => hlimit (Nat.lt_of_le_of_lt h hmore)]
    dsimp only
    refine .after _ fun first => ?_
    split
    · exact .refl _
    · refine .after _ fun props => .after _ fun next => ?_
      split
      · exact .refl _
      · exact .after _ fun _ => .collection fun inner => (ih.flowItems _ _ _).bind fun _ => .refl _
      · exact .after _ fun _ => .collection fun inner =>
          (ih.flowEntries _ _ _).bind fun _ => .refl _
      · refine .ite (.collection fun inner => (ih.flushItems _).bind fun _ => .refl _) ?_
        refine .ite (.after _ fun _ => .collection fun inner =>
          (ih.blockItems _ _).bind fun _ => .refl _) ?_
        refine .ite (.after _ fun _ => .collection fun inner =>
          (ih.blockEntries _ _).bind fun _ => .refl _) ?_
        exact .refl _

/-- A node that may have been left out. -/
theorem same_orEmpty {c : Prop} [Decidable c] (mark : Mark) (place : Place) {α : Type}
    {f g : Node → Composer α} (hf : ∀ a, Same (f a) (g a)) :
    Same (if c then emptyScalar context mark >>= f else node limit context fuel place >>= f)
      (if c then emptyScalar context mark >>= g else node more context fuel place >>= g) :=
  .ite (.after _ hf) ((ih.node place).bind hf)

theorem same_blockItems (start : Mark) (place : Place) :
    Same (blockItems limit context (fuel + 1) start place)
      (blockItems more context (fuel + 1) start place) := by
  rw [blockItems, blockItems]
  refine .after _ fun t => ?_
  split
  · refine .after _ fun _ => .after _ fun next => ?_
    exact same_orEmpty ih _ _ fun item => (ih.blockItems _ _).bind fun _ => .refl _
  · exact .refl _
  · exact .refl _

theorem same_flushItems (place : Place) :
    Same (flushItems limit context (fuel + 1) place)
      (flushItems more context (fuel + 1) place) := by
  rw [flushItems, flushItems]
  refine .after _ fun t => .ite (.refl _) ?_
  refine .after _ fun _ => .after _ fun next => ?_
  exact same_orEmpty ih _ _ fun item => (ih.flushItems _).bind fun _ => .refl _

/-- The value behind a key, which may have been left out with its mark. -/
theorem same_blockValue {ends : TokenKind → Bool} (place : Place) {α : Type}
    {f g : Node → Composer α} (hf : ∀ a, Same (f a) (g a)) :
    Same (do
        let mark ← peek context
        if mark.kind == .value then do
          advance
          let next ← peek context
          if ends next.kind then emptyScalar context next.stop >>= f
          else node limit context fuel place >>= f
        else emptyScalar context mark.start >>= f)
      (do
        let mark ← peek context
        if mark.kind == .value then do
          advance
          let next ← peek context
          if ends next.kind then emptyScalar context next.stop >>= g
          else node more context fuel place >>= g
        else emptyScalar context mark.start >>= g) := by
  refine .after _ fun mark => .ite ?_ (.after _ hf)
  exact .after _ fun _ => .after _ fun next => same_orEmpty ih _ _ hf

theorem same_blockEntries (start : Mark) (place : Place) :
    Same (blockEntries limit context (fuel + 1) start place)
      (blockEntries more context (fuel + 1) start place) := by
  rw [blockEntries, blockEntries]
  refine .after _ fun t => ?_
  dsimp only
  split
  · exact .refl _
  · have hbehind (key value : Node) :
        Same (do return (key, value) :: (← blockEntries limit context fuel start place))
          (do return (key, value) :: (← blockEntries more context fuel start place)) :=
      (ih.blockEntries _ _).bind fun _ => .refl _
    refine .ite (.after _ fun _ => .after _ fun next => ?_) (.ite (.after _ fun key => ?_) ?_)
    · exact same_orEmpty ih _ _ fun key => same_blockValue ih _ (hbehind key)
    · exact same_blockValue ih _ (hbehind key)
    · exact .after _ fun key => same_blockValue ih _ (hbehind key)

theorem same_flowValue (close : TokenKind) (place : Place) :
    Same (flowValue limit context (fuel + 1) close place)
      (flowValue more context (fuel + 1) close place) := by
  rw [flowValue, flowValue]
  refine .after _ fun mark => .ite (.refl _) ?_
  exact .after _ fun _ => .after _ fun next => .ite (.refl _) (ih.node _)

theorem same_flowKey (close : TokenKind) (stop : Mark) (place : Place) :
    Same (flowKey limit context (fuel + 1) close stop place)
      (flowKey more context (fuel + 1) close stop place) := by
  rw [flowKey, flowKey]
  exact .after _ fun next => .ite (.refl _) (ih.node _)

theorem same_flowItems (start : Mark) (isFirst : Bool) (place : Place) :
    Same (flowItems limit context (fuel + 1) start isFirst place)
      (flowItems more context (fuel + 1) start isFirst place) := by
  rw [flowItems, flowItems]
  refine .after _ fun t => .guarded fun _ => .after _ fun t => ?_
  split
  · exact .refl _
  · refine .after _ fun _ => (ih.flowKey _ _ _).bind fun key => ?_
    exact (ih.flowValue _ _).bind fun value => (ih.flowItems _ _ _).bind fun _ => .refl _
  · exact (ih.node _).bind fun item => (ih.flowItems _ _ _).bind fun _ => .refl _

theorem same_flowEntries (start : Mark) (isFirst : Bool) (place : Place) :
    Same (flowEntries limit context (fuel + 1) start isFirst place)
      (flowEntries more context (fuel + 1) start isFirst place) := by
  rw [flowEntries, flowEntries]
  refine .after _ fun t => .guarded fun _ => .after _ fun t => ?_
  have hbehind (key value : Node) :
      Same (do return (key, value) :: (← flowEntries limit context fuel start false place))
        (do return (key, value) :: (← flowEntries more context fuel start false place)) :=
    (ih.flowEntries _ _ _).bind fun _ => .refl _
  split
  · exact .refl _
  · refine .after _ fun _ => (ih.flowKey _ _ _).bind fun key => ?_
    exact (ih.flowValue _ _).bind (hbehind key)
  · refine .ite (.after _ fun key => (ih.flowValue _ _).bind (hbehind key)) ?_
    exact (ih.node _).bind fun key => .after _ fun next => .after _ (hbehind key)

end Step

/-- All functions for nodes come to the same with more room. -/
theorem areSame (h : limit ≤ more) (context : Context) (fuel : Nat) :
    AreSame limit more context fuel := by
  induction fuel with
  | zero => exact areSame_zero
  | succ fuel ih =>
    constructor
    case node => exact same_node ih h
    case blockItems => exact same_blockItems ih
    case flushItems => exact same_flushItems ih
    case blockEntries => exact same_blockEntries ih
    case flowValue => exact same_flowValue ih
    case flowKey => exact same_flowKey ih
    case flowItems => exact same_flowItems ih
    case flowEntries => exact same_flowEntries ih

theorem same_root (h : limit ≤ more) (document : Opened) :
    Same (root limit document) (root more document) := by
  unfold root
  refine .after _ fun _ => .after _ fun s => .after _ fun t => ?_
  exact .ite (.refl _) ((areSame h _ _).node _)

end Composer

/-! ## Texts -/

namespace Reader

open Composer (Same)

variable {limit more : Nat} (h : limit ≤ more)

include h

theorem same_dataOf (error : ReadError) (fuel : Nat) (between : Composer.Between) :
    Same (dataOf limit error fuel between) (dataOf more error fuel between) := by
  induction fuel generalizing between with
  | zero => exact .refl _
  | succ fuel ih =>
    rw [dataOf, dataOf]
    refine .after _ fun document? => ?_
    split
    · exact .refl _
    · refine (Composer.same_root h _).bind fun node => .after _ fun next => .after _ fun datum => ?_
      exact (ih next).bind fun _ => .refl _

theorem same_single (error : ReadError) : Same (single limit error) (single more error) := by
  unfold single
  refine .after _ fun document? => ?_
  split
  · exact .refl _
  · exact (Composer.same_root h _).bind fun node => .refl _

theorem sameUnless_dataOfText (text : List Char) :
    SameUnless (· = .tooDeep) (dataOfText limit text) (dataOfText more text) := by
  unfold dataOfText
  simp only
  split
  · exact (same_dataOf h _ _ _ _).map Prod.fst
  · exact (same_single h _ _).map Prod.fst

end Reader

/-- With more room a text is read the same, unless there was too little before. -/
theorem sameUnless_read {limit more : Nat} (h : limit ≤ more) (text : List Char) :
    SameUnless (· = .tooDeep) (read limit text) (read more text) := by
  unfold read
  cases unacceptable? text with
  | some found =>
    -- An unacceptable character is found before the room matters.
    obtain ⟨c, position⟩ := found
    exact SameUnless.refl (Except.error (ReadError.unacceptable c position))
  | none =>
    refine (Reader.sameUnless_dataOfText h text).bind fun data => ?_
    dsimp only
    split
    · exact .of_error rfl
    · next hlimit =>
      -- What is nested no deeper than there was room for has room still.
      have hmore : ¬((data.filter Reader.isPresent).any fun d => more < d.nesting) = true := by
        simp only [List.any_eq_true, decide_eq_true_eq, not_exists, not_and, Nat.not_lt] at hlimit ⊢
        exact fun d hd => Nat.le_trans (hlimit d hd) h
      rw [if_neg hmore]
      exact .refl _

end Schematic.Yaml
