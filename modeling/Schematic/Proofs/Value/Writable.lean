import Schematic.Drawing.Names
import Schematic.Proofs.Success

/-!
# Values that can be written

The only values without a text are integers with too many digits. A tree without them has a text
as a whole and in all its parts, so nothing that reads names or details out of it fails.

## Main definitions

- `Value.isWritable` — no integer of a tree has too many digits

## Main statements

- `Value.succeeds_text`, `Value.succeeds_getText`, `Value.succeeds_nameOr` — texts of such trees
-/

namespace Schematic

/-- An integer with no more digits than are ever written. -/
def hasShortDigits (n : Int) : Bool :=
  n.natAbs < Nat.pow 10 digitLimit

theorem hasShortDigits_iff {n : Int} :
    hasShortDigits n = true ↔ n.natAbs < Nat.pow 10 digitLimit := by
  rw [hasShortDigits, decide_eq_true_iff]

namespace Value

mutual

/-- No integer of a tree has more digits than are ever written. -/
def isWritable : Value → Bool
  | null | bool _ | float _ | str _ | bytes _ => true
  | int n => hasShortDigits n
  | list xs => areAllWritable xs
  | map es => haveAllWritable es
  | set ms => areAllWritable ms
  | pair a b => isWritable a && isWritable b
termination_by structural v => v

/-- Every item of a list is writable. -/
def areAllWritable : List Value → Bool
  | [] => true
  | x :: xs => isWritable x && areAllWritable xs
termination_by structural xs => xs

/-- Every value of a mapping is writable. -/
def haveAllWritable : List (String × Value) → Bool
  | [] => true
  | (_, v) :: es => isWritable v && haveAllWritable es
termination_by structural es => es

end

/-! ## Parts of a writable tree -/

theorem areAllWritable_iff {xs : List Value} :
    areAllWritable xs = true ↔ ∀ x ∈ xs, x.isWritable = true := by
  induction xs with
  | nil => simp [areAllWritable]
  | cons x xs ih => simp [areAllWritable, ih]

theorem haveAllWritable_iff {es : Entries Value} :
    haveAllWritable es = true ↔ ∀ e ∈ es, e.2.isWritable = true := by
  induction es with
  | nil => simp [haveAllWritable]
  | cons e es ih => simp [haveAllWritable, ih]

theorem isWritable_map_iff {es : Entries Value} :
    (map es).isWritable = true ↔ ∀ e ∈ es, e.2.isWritable = true := by
  rw [isWritable, haveAllWritable_iff]

variable {v : Value}

theorem isWritable_of_mem_entries (hv : v.isWritable = true) {e : String × Value}
    (he : e ∈ v.entries) : e.2.isWritable = true := by
  cases v with
  | map es => exact isWritable_map_iff.mp hv e he
  | _ => simp [entries] at he

theorem isWritable_get (hv : v.isWritable = true) (key : String) :
    (v.get key).isWritable = true := by
  unfold get
  cases h : v.entries.get? key with
  | none => rfl
  | some w => exact isWritable_of_mem_entries hv (Entries.mem_of_get?_eq_some h)

theorem isWritable_of_mem_getEntries (hv : v.isWritable = true) {key : String}
    {e : String × Value} (he : e ∈ v.getEntries key) : e.2.isWritable = true :=
  isWritable_of_mem_entries (isWritable_get hv key) he

theorem isWritable_path (hv : v.isWritable = true) (keys : List String) :
    (v.path keys).isWritable = true := by
  unfold path
  induction keys generalizing v with
  | nil => exact hv
  | cons key keys ih => exact ih (isWritable_get hv key)

theorem isWritable_of_mem_listed (hv : v.isWritable = true) {x : Value} (hx : x ∈ v.listed) :
    x.isWritable = true := by
  cases v with
  | list xs => exact areAllWritable_iff.mp hv x hx
  | _ => simp [listed] at hx

theorem isWritable_of_mem_getListed (hv : v.isWritable = true) {key : String} {x : Value}
    (hx : x ∈ v.getListed key) : x.isWritable = true :=
  isWritable_of_mem_listed (isWritable_get hv key) hx

theorem isWritable_of_mem_items (hv : v.isWritable = true) {x : Value} (hx : x ∈ v.items) :
    x.isWritable = true := by
  cases v with
  | null => simp [items] at hx
  | list xs => exact areAllWritable_iff.mp hv x hx
  | _ => exact List.mem_singleton.mp hx ▸ hv

/-! ## Texts -/

theorem succeeds_writeInt_iff {n : Int} : Succeeds (writeInt n) ↔ hasShortDigits n = true := by
  rw [hasShortDigits_iff, writeInt]
  split
  · next h => exact iff_of_true (succeeds_ok _) h
  · next h => exact iff_of_false (not_succeeds_error _) h

mutual

/-- A tree has a written form inside a container exactly if it is writable. -/
theorem succeeds_quoted_iff : (v : Value) → (Succeeds v.quoted ↔ v.isWritable = true)
  | null | bool _ | float _ | str _ | bytes _ => iff_of_true ⟨_, by rw [quoted]⟩ rfl
  | int n => by
    rw [quoted, isWritable]
    exact succeeds_writeInt_iff
  | list xs => by
    rw [quoted, isWritable, ← succeeds_quotedItems_iff xs]
    exact succeeds_bind_pure_iff
  | map es => by
    rw [quoted, isWritable, ← succeeds_quotedEntries_iff es]
    exact succeeds_bind_pure_iff
  | set ms => by
    rw [quoted, isWritable, ← succeeds_quotedItems_iff ms]
    exact succeeds_bind_pure_iff
  | pair a b => by
    rw [quoted, isWritable, Bool.and_eq_true, ← succeeds_quoted_iff a, ← succeeds_quoted_iff b]
    exact succeeds_bind_bind_iff fun _ _ => succeeds_pure _
termination_by structural v => v

theorem succeeds_quotedItems_iff : (xs : List Value) →
    (Succeeds (quotedItems xs) ↔ areAllWritable xs = true)
  | [] => iff_of_true (succeeds_ok _) rfl
  | x :: xs => by
    rw [quotedItems, areAllWritable, Bool.and_eq_true, ← succeeds_quoted_iff x,
      ← succeeds_quotedItems_iff xs]
    exact succeeds_bind_bind_iff fun _ _ => succeeds_pure _
termination_by structural xs => xs

theorem succeeds_quotedEntries_iff : (es : List (String × Value)) →
    (Succeeds (quotedEntries es) ↔ haveAllWritable es = true)
  | [] => iff_of_true (succeeds_ok _) rfl
  | (_, w) :: es => by
    rw [quotedEntries, haveAllWritable, Bool.and_eq_true, ← succeeds_quoted_iff w,
      ← succeeds_quotedEntries_iff es]
    exact succeeds_bind_bind_iff fun _ _ => succeeds_pure _
termination_by structural es => es

end

theorem succeeds_text (hv : v.isWritable = true) : Succeeds v.text := by
  unfold text
  split
  · exact succeeds_ok _
  · exact (succeeds_quoted_iff v).mpr hv

theorem succeeds_scalarText (hv : v.isWritable = true) (otherwise : String) :
    Succeeds (v.scalarText otherwise) := by
  unfold scalarText
  split
  · exact succeeds_ok _
  · exact succeeds_ok _
  · exact succeeds_ok _
  · exact succeeds_ok _
  · exact succeeds_text hv

theorem succeeds_getText (hv : v.isWritable = true) (key : String) (otherwise : String := "") :
    Succeeds (v.getText key otherwise) :=
  succeeds_scalarText (isWritable_get hv key) otherwise

/-- Only the value under the key has to be written. -/
theorem succeeds_nameOr_of_get {key : String} (hv : (v.get key).isWritable = true)
    (otherwise : String) : Succeeds (v.nameOr key otherwise) :=
  (succeeds_scalarText hv "").bind fun _ _ => succeeds_pure _

theorem succeeds_nameOr (hv : v.isWritable = true) (key otherwise : String) :
    Succeeds (v.nameOr key otherwise) :=
  succeeds_nameOr_of_get (isWritable_get hv key) otherwise

end Value

end Schematic
