import Schematic.Json.Writer
import Schematic.Proofs.Value.Writable

/-!
# Trees with a JSON text

A tree is written as JSON exactly if no integer of it has too many digits and there is room for all
its levels. More room changes nothing about what is written.

## Main definitions

- `Value.nesting` — how many levels of a tree are inside each other

## Main statements

- `succeeds_write_iff` — which trees have a JSON text
- `sameUnless_write` — what more room changes
-/

namespace Schematic

namespace Value

mutual

/-- The most levels of a tree inside each other: lists, mappings and pairs, and the strings that
stand for byte strings and sets. -/
def nesting : Value → Nat
  | null | bool _ | int _ | float _ | str _ => 0
  | list xs => nestingOfItems xs + 1
  | map es => nestingOfEntries es + 1
  | bytes _ | set _ => 1
  | pair a b => max (nesting a) (nesting b) + 1
termination_by structural v => v

/-- The most levels inside each other in an item of a list. -/
def nestingOfItems : List Value → Nat
  | [] => 0
  | x :: xs => max (nesting x) (nestingOfItems xs)
termination_by structural xs => xs

/-- The most levels inside each other in a value of a mapping. -/
def nestingOfEntries : List (String × Value) → Nat
  | [] => 0
  | (_, v) :: es => max (nesting v) (nestingOfEntries es)
termination_by structural es => es

end

end Value

namespace Json

open Value

variable {α : Type} {limit more : Nat}

/-! ## Levels -/

/-- What is written inside a level has a text if there is room for the level and what is in it. -/
theorem succeeds_inside_iff {content : Nat → Except WriteError α} {p : Prop} {depth : Nat}
    (h : ∀ left, Succeeds (content left) ↔ p ∧ depth ≤ left) :
    Succeeds (inside limit content) ↔ p ∧ depth + 1 ≤ limit := by
  cases limit with
  | zero => exact iff_of_false (not_succeeds_error _) fun h => Nat.not_succ_le_zero depth h.2
  | succ left => rw [inside, h, Nat.succ_le_succ_iff]

theorem exists_of_inside_eq_ok {content : Nat → Except WriteError α} {a : α}
    (h : inside limit content = .ok a) : ∃ left, content left = .ok a := by
  cases limit with
  | zero => cases h
  | succ left => exact ⟨left, h⟩

theorem sameUnless_inside (h : limit ≤ more) {content : Nat → Except WriteError α}
    (hcontent : ∀ {left right : Nat}, left ≤ right →
      SameUnless (· = .tooDeep) (content left) (content right)) :
    SameUnless (· = .tooDeep) (inside limit content) (inside more content) := by
  cases limit with
  | zero => exact .of_error rfl
  | succ left =>
    cases more with
    | zero => exact absurd h (Nat.not_succ_le_zero left)
    | succ right => exact hcontent (Nat.le_of_succ_le_succ h)

theorem succeeds_ofNumber_iff {r : Except NumberError α} :
    Succeeds (ofNumber r) ↔ Succeeds r :=
  exists_congr fun _ => mapError_eq_ok_iff

/-! ## Trees -/

mutual

/-- A tree has a JSON text exactly if it is writable and there is room for its levels. -/
theorem succeeds_write_iff (limit : Nat) : (v : Value) →
    (Succeeds (write limit v) ↔ v.isWritable = true ∧ v.nesting ≤ limit)
  | .null | .bool _ | .float _ | .str _ =>
    iff_of_true ⟨_, by rw [write]⟩ ⟨rfl, Nat.zero_le limit⟩
  | .int n => by
    rw [write, isWritable, nesting, succeeds_ofNumber_iff, succeeds_map_iff, succeeds_writeInt_iff]
    exact (and_iff_left (Nat.zero_le limit)).symm
  | .list xs => by
    rw [write, isWritable, nesting]
    exact succeeds_inside_iff fun left =>
      succeeds_bind_pure_iff.trans (succeeds_writeItems_iff left xs)
  | .map es => by
    rw [write, isWritable, nesting]
    exact succeeds_inside_iff fun left =>
      succeeds_bind_pure_iff.trans (succeeds_writeEntries_iff left es)
  | .bytes bs => by
    rw [write, nesting]
    refine succeeds_inside_iff fun left => ?_
    rw [succeeds_ofNumber_iff, succeeds_map_iff, succeeds_quoted_iff]
    exact (and_iff_left (Nat.zero_le left)).symm
  | .set ms => by
    rw [write, nesting]
    refine succeeds_inside_iff fun left => ?_
    rw [succeeds_ofNumber_iff, succeeds_map_iff, succeeds_quoted_iff]
    exact (and_iff_left (Nat.zero_le left)).symm
  | .pair a b => by
    rw [write, isWritable, nesting, Bool.and_eq_true]
    refine succeeds_inside_iff fun left => ?_
    rw [Nat.max_le, and_and_and_comm, ← succeeds_write_iff left a, ← succeeds_write_iff left b]
    exact succeeds_bind_bind_iff fun _ _ => succeeds_pure _
termination_by structural v => v

theorem succeeds_writeItems_iff (limit : Nat) : (xs : List Value) →
    (Succeeds (writeItems limit xs) ↔ areAllWritable xs = true ∧ nestingOfItems xs ≤ limit)
  | [] => iff_of_true (succeeds_ok _) ⟨rfl, Nat.zero_le limit⟩
  | x :: xs => by
    rw [writeItems, areAllWritable, nestingOfItems, Bool.and_eq_true, Nat.max_le,
      and_and_and_comm, ← succeeds_write_iff limit x, ← succeeds_writeItems_iff limit xs]
    exact succeeds_bind_bind_iff fun _ _ => succeeds_pure _
termination_by structural xs => xs

theorem succeeds_writeEntries_iff (limit : Nat) : (es : List (String × Value)) →
    (Succeeds (writeEntries limit es) ↔ haveAllWritable es = true ∧ nestingOfEntries es ≤ limit)
  | [] => iff_of_true (succeeds_ok _) ⟨rfl, Nat.zero_le limit⟩
  | (_, v) :: es => by
    rw [writeEntries, haveAllWritable, nestingOfEntries, Bool.and_eq_true, Nat.max_le,
      and_and_and_comm, ← succeeds_write_iff limit v, ← succeeds_writeEntries_iff limit es]
    exact succeeds_bind_bind_iff fun _ _ => succeeds_pure _
termination_by structural es => es

end

/-! ## More room -/

mutual

/-- With more room the same is written, unless there was too little before. -/
theorem sameUnless_write : (v : Value) → ∀ {limit more : Nat}, limit ≤ more →
    SameUnless (· = .tooDeep) (write limit v) (write more v)
  | .null | .bool _ | .int _ | .float _ | .str _ => by
    intro _
    rw [write, write]
    exact .refl _
  | .list xs => by
    intro h
    rw [write, write]
    exact sameUnless_inside h fun hleft =>
      (sameUnless_writeItems xs hleft).bind fun _ => .refl _
  | .map es => by
    intro h
    rw [write, write]
    exact sameUnless_inside h fun hleft =>
      (sameUnless_writeEntries es hleft).bind fun _ => .refl _
  | .bytes _ | .set _ => by
    intro h
    rw [write, write]
    exact sameUnless_inside h fun _ => .refl _
  | .pair a b => by
    intro h
    rw [write, write]
    exact sameUnless_inside h fun hleft =>
      (sameUnless_write a hleft).bind fun _ =>
        (sameUnless_write b hleft).bind fun _ => .refl _
termination_by structural v => v

theorem sameUnless_writeItems : (xs : List Value) → ∀ {limit more : Nat}, limit ≤ more →
    SameUnless (· = .tooDeep) (writeItems limit xs) (writeItems more xs)
  | [] => fun _ => .refl _
  | x :: xs => by
    intro h
    rw [writeItems, writeItems]
    exact (sameUnless_write x h).bind fun _ =>
      (sameUnless_writeItems xs h).bind fun _ => .refl _
termination_by structural xs => xs

theorem sameUnless_writeEntries : (es : List (String × Value)) → ∀ {limit more : Nat},
    limit ≤ more → SameUnless (· = .tooDeep) (writeEntries limit es) (writeEntries more es)
  | [] => fun _ => .refl _
  | (k, v) :: es => by
    intro h
    rw [writeEntries, writeEntries]
    exact (sameUnless_write v h).bind fun _ =>
      (sameUnless_writeEntries es h).bind fun _ => .refl _
termination_by structural es => es

end

end Json

end Schematic
