import Schematic.Json.Reader
import Schematic.Proofs.Json.Writer

/-!
# Lists inside each other

The plainest texts that are nested deeply: one key, and under it lists that hold one list each.
Whether they are read and written is a matter of room alone, so they show how much there is.

## Main definitions

- `nestedLists`, `nestedText` — lists inside each other, and the text that has them under a key

## Main statements

- `read_nestedText` — how much room it takes to read such a text
- `isWritable_nestedLists`, `nesting_nestedLists` — and to write its tree
-/

namespace Schematic.Json

open Value

/-- An empty list with lists around it. -/
def nestedLists : Nat → Value
  | 0 => .list []
  | n + 1 => .list [nestedLists n]

/-- The brackets of such lists, in front of a rest. -/
def brackets : Nat → List Char → List Char
  | 0, rest => '[' :: ']' :: rest
  | n + 1, rest => '[' :: brackets n (']' :: rest)

/-- A mapping with one key, for such lists. -/
def nestedText (key : List Char) (n : Nat) : String :=
  String.ofList ('\x7b' :: '"' :: (key ++ '"' :: ':' :: brackets n ['}']))

/-! ## Reading -/

/-- A string without escapes is read for what it is. -/
theorem stringBody_append {opened : Nat} {done cs rest : List Char}
    (h : ∀ c ∈ cs, c ≠ '"' ∧ c ≠ '\\' ∧ 0x20 ≤ c.toNat) :
    stringBody opened done (cs ++ '"' :: rest) = .ok (done.reverse ++ cs, rest) := by
  induction cs generalizing done with
  | nil => simp [stringBody]
  | cons c cs ih =>
    rw [List.forall_mem_cons] at h
    obtain ⟨⟨hquote, hescape, hprintable⟩, hcs⟩ := h
    have hstep : stringBody opened done (c :: (cs ++ '"' :: rest)) =
        stringBody opened (c :: done) (cs ++ '"' :: rest) := by
      rw [stringBody]
      · rw [if_neg (Nat.not_lt.mpr hprintable)]
      all_goals simp_all
    rw [List.cons_append, hstep, ih hcs]
    simp

theorem skipSpace_brackets (n : Nat) (rest : List Char) :
    skipSpace (brackets n rest) = brackets n rest := by
  cases n <;> rfl

theorem length_brackets (n : Nat) (rest : List Char) :
    (brackets n rest).length = 2 * (n + 1) + rest.length := by
  induction n generalizing rest with
  | zero => exact Nat.add_comm rest.length 2
  | succ n ih =>
    rw [brackets, List.length_cons, ih, List.length_cons]
    omega

theorem length_nestedText (key : List Char) (n : Nat) :
    (nestedText key n).toList.length = key.length + 2 * n + 7 := by
  rw [nestedText, String.toList_ofList]
  simp only [List.length_cons, List.length_append, List.length_nil, length_brackets]
  omega

/-- Brackets are walked over if there is room for them above what is already open. -/
theorem walk_brackets (limit fuel n : Nat) (stack : List Frame) (rest : List Char) :
    walk limit (fuel + (2 * n + 1)) (.value stack (brackets n rest)) =
      if stack.length + n < limit then walk limit fuel (.close stack (nestedLists n) rest)
      else .error .tooDeep := by
  -- A list opens in one step and closes in another, with the lists inside it in between: the stack
  -- is one frame higher there, and one step is left for the bracket behind them.
  induction n generalizing fuel stack rest with
  | zero =>
    show (readValue limit stack ('[' :: ']' :: rest)).bind (walk limit fuel) = _
    by_cases hroom : stack.length < limit
    · rw [readValue, if_neg (Nat.not_le.mpr hroom), Nat.add_zero, if_pos hroom]
      rfl
    · rw [readValue, if_pos (Nat.not_lt.mp hroom), Nat.add_zero, if_neg hroom]
      rfl
  | succ n ih =>
    have hfuel : fuel + (2 * (n + 1) + 1) = fuel + 1 + (2 * n + 1) + 1 := by omega
    rw [hfuel]
    show (readValue limit stack ('[' :: brackets n (']' :: rest))).bind
      (walk limit (fuel + 1 + (2 * n + 1))) = _
    by_cases hroom : stack.length < limit
    · -- The outermost list is opened, and closed again behind the others.
      have hopen : readValue limit stack ('[' :: brackets n (']' :: rest)) =
          .ok (.value (.list [] :: stack) (brackets n (']' :: rest))) := by
        rw [readValue, if_neg (Nat.not_le.mpr hroom), skipSpace_brackets]
        cases n <;> rfl
      have hlength : (Frame.list [] :: stack).length + n = stack.length + (n + 1) := by
        rw [List.length_cons, Nat.add_assoc, Nat.add_comm 1 n]
      rw [hopen, Except.bind, ih, hlength]
      rfl
    · rw [readValue, if_pos (Nat.not_lt.mp hroom), if_neg (by omega)]
      rfl

section Texts

variable {key : List Char} (hkey : ∀ c ∈ key, c ≠ '"' ∧ c ≠ '\\' ∧ 0x20 ≤ c.toNat)

include hkey

/-- A mapping is opened and its key read, if there is room for the mapping. -/
theorem walk_key (limit fuel : Nat) (stack : List Frame) (rest : List Char) :
    walk limit (fuel + 2) (.value stack ('\x7b' :: '"' :: (key ++ '"' :: ':' :: rest))) =
      if stack.length < limit then
        walk limit fuel (.value (.map [] (String.ofList key) :: stack) (skipSpace rest))
      else .error .tooDeep := by
  by_cases hroom : stack.length < limit
  · have hopen : readValue limit stack ('\x7b' :: '"' :: (key ++ '"' :: ':' :: rest)) =
        .ok (.key stack [] ('"' :: (key ++ '"' :: ':' :: rest))) := by
      rw [readValue, if_neg (Nat.not_le.mpr hroom)]
      rfl
    have hread : readKey stack [] ('"' :: (key ++ '"' :: ':' :: rest)) =
        .ok (.value (.map [] (String.ofList key) :: stack) (skipSpace rest)) := by
      rw [readKey, stringBody_append hkey]
      rfl
    rw [if_pos hroom, walk, hopen, Except.bind, walk, hread]
    rfl
  · rw [if_neg hroom, walk, readValue, if_pos (Nat.not_lt.mp hroom)]
    rfl

theorem readAll_nestedText (limit n : Nat) :
    readAll limit (nestedText key n).toList =
      if n + 1 < limit then .ok (.map [(String.ofList key, nestedLists n)])
      else .error .tooDeep := by
  have htext : (nestedText key n).toList =
      '\x7b' :: '"' :: (key ++ '"' :: ':' :: brackets n ['\x7d']) := String.toList_ofList
  have hfuel : (nestedText key n).toList.length + 2 = key.length + 6 + (2 * n + 1) + 2 := by
    rw [length_nestedText]
    omega
  have hwalk : walk limit ((nestedText key n).toList.length + 2)
      (.value [] (skipSpace (nestedText key n).toList)) =
        if n + 1 < limit then .ok (.map [(String.ofList key, nestedLists n)], [])
        else .error .tooDeep := by
    have hspace : skipSpace (nestedText key n).toList = (nestedText key n).toList := by
      rw [htext]
      rfl
    rw [hfuel, hspace, htext, walk_key hkey, skipSpace_brackets, walk_brackets,
      List.length_singleton, List.length_nil, Nat.add_comm 1 n]
    by_cases hroom : n + 1 < limit
    · -- The last bracket closes the mapping, and nothing is left.
      rw [if_pos (Nat.zero_lt_of_lt hroom), if_pos hroom, if_pos hroom]
      rfl
    · rw [if_neg hroom, if_neg hroom, ite_self]
  have hmarked : (nestedText key n).toList.head? ≠ some '\uFEFF' := by
    simp [htext]
  rw [readAll, if_neg hmarked, hwalk]
  by_cases hroom : n + 1 < limit
  · rw [if_pos hroom, if_pos hroom]
    rfl
  · rw [if_neg hroom, if_neg hroom]
    rfl

/-- Besides the lists there is the mapping around them. -/
theorem read_nestedText (limit n : Nat) :
    read limit (nestedText key n) =
      if n + 1 < limit then .ok (.map [(String.ofList key, nestedLists n)])
      else .error .tooDeep := by
  unfold read
  simp only
  rw [readAll_nestedText hkey]
  by_cases hroom : n + 1 < limit
  · rw [if_pos hroom, if_pos hroom]
  · rw [if_neg hroom, if_neg hroom]

end Texts

/-! ## Writing -/

theorem isWritable_nestedLists (n : Nat) : (nestedLists n).isWritable = true := by
  induction n with
  | zero => rfl
  | succ n ih => exact areAllWritable_iff.mpr (List.forall_mem_singleton.mpr ih)

theorem nesting_nestedLists (n : Nat) : (nestedLists n).nesting = n + 1 := by
  induction n with
  | zero => rfl
  | succ n ih => rw [nestedLists, nesting, nestingOfItems, nestingOfItems, ih, Nat.max_zero]

end Schematic.Json
