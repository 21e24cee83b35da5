import Schematic.Value.Basic

/-!
# Plain trees

A tree is plain if all its parts are: the items of its lists and the values of its mappings.

## Main statements

- `Value.isPlain_list_iff`, `Value.isPlain_map_iff` — plain lists and mappings
-/

namespace Schematic.Value

theorem areAllPlain_iff {xs : List Value} :
    areAllPlain xs = true ↔ ∀ x ∈ xs, x.isPlain = true := by
  induction xs with
  | nil => simp [areAllPlain]
  | cons x xs ih => simp [areAllPlain, ih]

theorem haveAllPlain_iff {es : Entries Value} :
    haveAllPlain es = true ↔ ∀ e ∈ es, e.2.isPlain = true := by
  induction es with
  | nil => simp [haveAllPlain]
  | cons e es ih => simp [haveAllPlain, ih]

theorem isPlain_list_iff {xs : List Value} :
    (list xs).isPlain = true ↔ ∀ x ∈ xs, x.isPlain = true := by
  rw [isPlain, areAllPlain_iff]

theorem isPlain_map_iff {es : Entries Value} :
    (map es).isPlain = true ↔ ∀ e ∈ es, e.2.isPlain = true := by
  rw [isPlain, haveAllPlain_iff]

end Schematic.Value
