import Schematic.Text.Distinct
import Schematic.Text.Interpolation
import Schematic.Text.Word
import Schematic.Value.Basic

/-!
# References in expressions

An expression refers to another part of a configuration by a traversal of names with dots between
them. Only its first names matter: they tell the resource, data source or module. String literals
inside an expression refer to nothing.

## Main definitions

- `Traversal`, `Traversal.target?` — the head of a reference and what it refers to
- `traversals` — the heads in an expression, from left to right
- `references` — the targets of all expressions in the attributes of a block
-/

namespace Schematic.Drawing

/-- The head of a reference: two names with a dot between them, perhaps behind `data.`. -/
structure Traversal where
  inData : Bool
  root : String
  name : String
deriving DecidableEq, Repr

/-- Roots that refer to no other part of a configuration. -/
def valueRoots : List String :=
  ["var", "local", "count", "each", "path", "self", "terraform"]

/-- The node that a reference points at. -/
def Traversal.target? (t : Traversal) : Option String :=
  -- Behind the mark of data any two names are a data source.
  if t.inData then some ("data_" ++ t.root ++ "_" ++ t.name)
  else if t.root ∈ valueRoots ∨ t.root = "data" then none
  else if t.root = "module" then some ("module_" ++ t.name)
  else some (t.root ++ "_" ++ t.name)

/-! ## Finding references -/

/-- A name at the front of a text, and what follows. -/
def name? : List Char → Option (List Char × List Char)
  | [] => none
  | c :: rest =>
    if Text.isIdentStart c then
      some (c :: rest.takeWhile Text.isIdentRest, rest.dropWhile Text.isIdentRest)
    else none

theorem length_lt_of_name? {cs name left : List Char} (h : name? cs = some (name, left)) :
    left.length < cs.length := by
  unfold name? at h
  split at h
  · simp at h
  · split at h
    · simp only [Option.some.injEq, Prod.mk.injEq] at h
      rw [← h.2, List.length_cons]
      exact Nat.lt_succ_of_le (List.dropWhile_suffix _).length_le
    · simp at h

/-- Two names with a dot between them at the front of a text, and what follows. -/
def namePair? (cs : List Char) : Option (List Char × List Char × List Char) :=
  match name? cs with
  | some (root, '.' :: rest) => (name? rest).map fun (name, left) => (root, name, left)
  | _ => none

theorem length_lt_of_namePair? {cs root name left : List Char}
    (h : namePair? cs = some (root, name, left)) : left.length < cs.length := by
  unfold namePair? at h
  split at h
  · rename_i hroot
    obtain ⟨⟨n, l⟩, hname, he⟩ := Option.map_eq_some_iff.1 h
    simp only [Prod.mk.injEq] at he
    have first := length_lt_of_name? hroot
    have second := length_lt_of_name? hname
    rw [← he.2.2]
    simp only [List.length_cons] at first
    omega
  · simp at h

/-- What follows the mark of a data source at the front of a text. -/
def afterDataMark? : List Char → Option (List Char)
  | 'd' :: 'a' :: 't' :: 'a' :: '.' :: rest => some rest
  | _ => none

theorem length_lt_of_afterDataMark? {cs rest : List Char} (h : afterDataMark? cs = some rest) :
    rest.length < cs.length := by
  unfold afterDataMark? at h
  split at h
  · simp only [Option.some.injEq] at h
    simp only [h, List.length_cons]
    omega
  · simp at h

/-- A reference at the front of a text, with its data mark if both names follow that, and what
follows. -/
def traversal? (cs : List Char) : Option (Traversal × List Char) :=
  match (afterDataMark? cs).bind namePair? with
  | some (root, name, left) => some (⟨true, String.ofList root, String.ofList name⟩, left)
  | none =>
    (namePair? cs).map fun (root, name, left) =>
      (⟨false, String.ofList root, String.ofList name⟩, left)

theorem length_lt_of_traversal? {cs left : List Char} {t : Traversal}
    (h : traversal? cs = some (t, left)) : left.length < cs.length := by
  unfold traversal? at h
  split at h
  · rename_i hmarked
    obtain ⟨rest, hrest, hpair⟩ := Option.bind_eq_some_iff.1 hmarked
    simp only [Option.some.injEq, Prod.mk.injEq] at h
    rw [← h.2]
    exact Nat.lt_trans (length_lt_of_namePair? hpair) (length_lt_of_afterDataMark? hrest)
  · obtain ⟨⟨root, name, l⟩, hpair, he⟩ := Option.map_eq_some_iff.1 h
    simp only [Prod.mk.injEq] at he
    rw [← he.2]
    exact length_lt_of_namePair? hpair

/-- A character behind which no reference begins. -/
def joins (c : Char) : Bool :=
  Text.isIdentRest c || c == '.'

/-- The references in a text, from left to right. None begins directly behind a name or a dot,
so one is found per chain of names. -/
def traversals (joined : Bool) (cs : List Char) : List Traversal :=
  match cs with
  | [] => []
  | c :: rest =>
    if joined then traversals (joins c) rest
    else
      match _h : traversal? (c :: rest) with
      -- The rest of the chain belongs to the reference.
      | some (t, left) => t :: traversals true left
      | none => traversals (joins c) rest
termination_by cs.length
decreasing_by
  · simp
  · exact length_lt_of_traversal? _h
  · simp

/-! ## String literals -/

/-- What follows a string literal, from behind its opening quote on. -/
def afterLiteral : List Char → List Char
  | [] => []
  | '"' :: rest => rest
  | ['\\'] => []
  | '\\' :: _ :: rest => afterLiteral rest
  | _ :: rest => afterLiteral rest

theorem length_afterLiteral_le (cs : List Char) : (afterLiteral cs).length ≤ cs.length := by
  fun_induction afterLiteral cs <;> simp_all <;> omega

/-- An expression with a blank instead of each string literal. -/
def blankLiterals (cs : List Char) : List Char :=
  match cs with
  | [] => []
  | c :: rest =>
    if c = '"' then ' ' :: blankLiterals (afterLiteral rest) else c :: blankLiterals rest
termination_by cs.length
decreasing_by
  · exact Nat.lt_succ_of_le (length_afterLiteral_le rest)
  · simp

/-! ## References of a block -/

/-- The references in the expressions that a text embeds. -/
def referencesInText (text : String) : List String :=
  (Text.interpolations text.toList).flatMap fun expression =>
    (traversals false (blankLiterals expression)).filterMap Traversal.target?

/-- The targets of all references in the attributes of a block, apart from the ones that are
listed as dependencies. -/
def references (config : Entries Value) : List String :=
  Text.distinct ((config.filter fun (key, _) => key != "depends_on").flatMap fun (_, value) =>
    value.strings.flatMap referencesInText)

end Schematic.Drawing
