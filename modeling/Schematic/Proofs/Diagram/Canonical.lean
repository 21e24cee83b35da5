import Mathlib.Data.List.Basic
import Mathlib.Logic.Relation
import Schematic.Proofs.Diagram.Identifier

/-!
# The form of identifiers

Making an identifier of a name brings the name into a form of its own, and a name is in that form
exactly if it is its own identifier. Replacing, collapsing, trimming and the two marks at the front
do not get in each other's way: a mark is put before a whole word, so it makes no run of underscores
and no reserved word, and behind it nothing is left to be done.

Characters that no identifier holds are all alike, and so are the runs of underscores: a name may be
respelled with others of them and keeps its identifier.

## Main definitions

- `Identifier.IsCanonical` — the form of identifiers
- `Identifier.Respelled` — a name with another character or run that comes to an underscore

## Main statements

- `Identifier.isCanonical_ofChars` — identifiers have the form
- `Identifier.ofChars_eq_self` — what has the form is left as it is
- `Identifier.Respelled.words_eq` — respelling a name changes none of its words
- `isCanonical_identifier` — identifiers are a normal form of names
-/

namespace Schematic

namespace Identifier

/-- A letter, a digit, an underscore or a hyphen of ASCII. -/
def IsWordChar (c : Char) : Prop :=
  c.isAlphanum = true ∨ c = '_' ∨ c = '-'

theorem isAllowed_iff {c : Char} : isAllowed c = true ↔ IsWordChar c := by
  simp [isAllowed, IsWordChar, or_assoc]

instance : DecidablePred IsWordChar := fun _ => decidable_of_iff _ isAllowed_iff

/-- The form of identifiers: a letter and behind it letters, digits, hyphens and single underscores,
none of these at the end, and no reserved word in any case. -/
structure IsCanonical (cs : List Char) : Prop where
  exists_cons : ∃ first rest, cs = first :: rest ∧ first.isAlpha = true ∧ ∀ c ∈ rest, IsWordChar c
  pair_not_infix : ¬['_', '_'] <:+: cs
  getLast?_ne : cs.getLast? ≠ some '_'
  ne_reserved : ∀ word ∈ reserved, cs.map Char.toLower ≠ word.toList

/-! ## Joined words -/

/-- Joined words do not end in an underscore. -/
theorem getLast?_joined_ne {ws : List (List Char)} (hne : ∀ word ∈ ws, word ≠ [])
    (hplain : ∀ word ∈ ws, '_' ∉ word) : (joined ws).getLast? ≠ some '_' := by
  induction ws with
  | nil => simp
  | cons first ws ih =>
    rw [List.forall_mem_cons] at hne hplain
    cases ws with
    | nil =>
      rw [joined_singleton]
      exact fun hlast => hplain.1 (List.mem_of_getLast? hlast)
    | cons second ws =>
      obtain ⟨c, rest, hjoined⟩ : ∃ c rest, joined (second :: ws) = c :: rest :=
        List.exists_cons_of_ne_nil fun hnil =>
          absurd ((joined_eq_nil hne.2).mp hnil) (List.cons_ne_nil _ _)
      have ih := ih hne.2 hplain.2
      rw [hjoined] at ih
      rw [joined_cons_cons, hjoined, List.getLast?_append_cons, List.getLast?_cons_cons]
      exact ih

/-- Between joined words there is one underscore. -/
theorem pair_not_infix_joined {ws : List (List Char)} (hne : ∀ word ∈ ws, word ≠ [])
    (hplain : ∀ word ∈ ws, '_' ∉ word) : ¬['_', '_'] <:+: joined ws := by
  have hnone {cs : List Char} (h : '_' ∉ cs) : ¬['_', '_'] <:+: cs :=
    fun hpair => h (hpair.subset List.mem_cons_self)
  induction ws with
  | nil => exact hnone List.not_mem_nil
  | cons first ws ih =>
    rw [List.forall_mem_cons] at hne hplain
    cases ws with
    | nil =>
      rw [joined_singleton]
      exact hnone hplain.1
    | cons second ws =>
      have hsecond := hne.2 second List.mem_cons_self
      obtain ⟨c, word, rfl⟩ := List.exists_cons_of_ne_nil hsecond
      have hc : '_' ≠ c := fun heq => hplain.2 _ List.mem_cons_self (heq ▸ List.mem_cons_self)
      have ih := ih hne.2 hplain.2
      rw [joined_cons_cons, Text.infix_append_iff_of_head_not_mem hplain.1, List.infix_cons_iff]
      rintro (hpair | hpair)
      -- Behind the underscore the next word begins, and not with another one.
      · rw [joined_cons_left, List.cons_prefix_cons, List.cons_prefix_cons] at hpair
        exact hc hpair.2.1
      · exact ih hpair

/-- Identifiers have the form. -/
theorem isCanonical_ofChars (cs : List Char) : IsCanonical (ofChars cs) := by
  have hid := isNodeId_ofChars cs
  obtain ⟨first, rest, hcons⟩ := List.exists_cons_of_ne_nil hid.ne_nil
  have hne : ∀ word ∈ marked (words cs), word ≠ [] :=
    ne_nil_of_mem_marked fun word => ne_nil_of_mem_pieces
  have hplain : ∀ word ∈ marked (words cs), '_' ∉ word :=
    underscore_not_mem_of_mem_marked fun word => underscore_not_mem_of_mem_pieces
  constructor
  case exists_cons =>
    refine ⟨first, rest, hcons, ?_, fun c hc => ?_⟩
    · simpa [hcons] using hid.isAlpha_head
    · exact isAllowed_iff.mp (hid.isAllowed c (hcons ▸ List.mem_cons_of_mem first hc))
  case pair_not_infix =>
    rw [ofChars_eq_joined]
    exact pair_not_infix_joined hne hplain
  case getLast?_ne =>
    rw [ofChars_eq_joined]
    exact getLast?_joined_ne hne hplain
  case ne_reserved =>
    intro word hword heq
    have hreserved : isReserved (ofChars cs) = true := by
      rw [isReserved, heq, String.ofList_toList]
      exact List.contains_iff_mem.mpr hword
    exact absurd hreserved (by rw [hid.isReserved_eq_false]; decide)

/-! ## What is left as it is -/

theorem collapse_eq_self {cs : List Char} (h : ¬['_', '_'] <:+: cs) : collapse cs = cs := by
  fun_induction collapse cs with
  | case1 => rfl
  | case2 c rest hpair ih =>
    obtain ⟨rfl, hrest⟩ := hpair
    obtain ⟨more, rfl⟩ := List.head?_eq_some_iff.mp hrest
    exact absurd ⟨[], more, rfl⟩ h
  | case3 c rest hpair ih =>
    rw [ih fun hwithin => h (hwithin.trans (List.suffix_cons c rest).isInfix)]

theorem trimUnderscores_eq_self {cs : List Char} (hhead : cs.head? ≠ some '_')
    (hlast : cs.getLast? ≠ some '_') : trimUnderscores cs = cs := by
  have hdrop {ds : List Char} (hds : ds.head? ≠ some '_') : ds.dropWhile (· == '_') = ds := by
    cases ds with
    | nil => rfl
    | cons d ds => exact List.dropWhile_cons_of_neg (by simpa using hds)
  rw [trimUnderscores, hdrop hhead, hdrop (by rwa [List.head?_reverse]), List.reverse_reverse]

/-- What has the form is its own identifier. -/
theorem ofChars_eq_self {cs : List Char} (h : IsCanonical cs) : ofChars cs = cs := by
  obtain ⟨first, rest, rfl, halpha, hrest⟩ := h.exists_cons
  have hallowed : ∀ c ∈ first :: rest, isAllowed c = true := by
    have hfirst : IsWordChar first := .inl (by simp [Char.isAlphanum, halpha])
    simp only [isAllowed_iff]
    exact List.forall_mem_cons.mpr ⟨hfirst, hrest⟩
  -- There is nothing to replace, to collapse or to trim, and then no mark to put.
  have hmap : (first :: rest).map replaced = first :: rest := by
    refine (List.map_congr_left fun c hc => ?_).trans (List.map_id _)
    exact if_pos (hallowed c hc)
  have hhead : (first :: rest).head? ≠ some '_' := by
    intro heq
    obtain rfl := Option.some.inj heq
    exact absurd halpha (by decide)
  have hsqueeze : squeeze (first :: rest) = first :: rest := by
    show trimUnderscores (collapse ((first :: rest).map replaced)) = _
    rw [hmap, collapse_eq_self h.pair_not_infix, trimUnderscores_eq_self hhead h.getLast?_ne]
  have hreserved : isReserved (first :: rest) = false := by
    rw [← Bool.not_eq_true]
    intro hmem
    apply h.ne_reserved _ (List.contains_iff_mem.mp hmem)
    rw [String.toList_ofList]
  simp [ofChars, hsqueeze, halpha, hreserved]

/-! ## Other spellings -/

/-- One spelling of a name and another one: with an underscore in place of a character that no
identifier holds, or with another run of underscores in place of one. -/
inductive Respelled : List Char → List Char → Prop where
  | replaced {c : Char} (hc : ¬IsWordChar c) (front back : List Char) :
      Respelled (front ++ c :: back) (front ++ '_' :: back)
  | run {m n : Nat} (hm : 0 < m) (hn : 0 < n) (front back : List Char) :
      Respelled (front ++ (List.replicate m '_' ++ back)) (front ++ (List.replicate n '_' ++ back))

/-- A run of underscores parts words as one underscore does. -/
theorem words_append_run {n : Nat} (h : 0 < n) (front back : List Char) :
    words (front ++ (List.replicate n '_' ++ back)) = words front ++ words back := by
  induction n generalizing front with
  | zero => exact absurd h (Nat.lt_irrefl 0)
  | succ n ih =>
    rw [List.replicate_succ, List.cons_append, words_append_underscore]
    rcases Nat.eq_zero_or_pos n with rfl | hn
    · rfl
    · exact congrArg (words front ++ ·) (ih hn [])

/-- Respelling a name changes none of its words. -/
theorem Respelled.words_eq {cs ds : List Char} (h : Respelled cs ds) : words cs = words ds := by
  cases h with
  | @replaced c hc front back =>
    have hunderscore : Identifier.replaced c = '_' := if_neg (mt isAllowed_iff.mp hc)
    rw [words_append_of_replaced hunderscore, words_append_underscore]
  | run hm hn front back => rw [words_append_run hm, words_append_run hn]

end Identifier

open Identifier

/-- The identifier of a name has the form of identifiers, and names of this form are their own
identifiers, so making one again changes nothing. However often a name is respelled, its identifier
stays the same. -/
theorem isCanonical_identifier (name : String) :
    IsCanonical (identifier name).toList ∧
      identifier (identifier name) = identifier name ∧
      (identifier name = name ↔ IsCanonical name.toList) ∧
      ∀ other : String, Relation.ReflTransGen Respelled name.toList other.toList →
        identifier other = identifier name := by
  have hform (name : String) : IsCanonical (identifier name).toList := by
    rw [identifier, String.toList_ofList]
    exact isCanonical_ofChars name.toList
  have hself {name : String} (h : IsCanonical name.toList) : identifier name = name := by
    rw [identifier, ofChars_eq_self h, String.ofList_toList]
  refine ⟨hform name, hself (hform name), ⟨fun heq => heq ▸ hform name, hself⟩, fun other h => ?_⟩
  have hwords : words name.toList = words other.toList := by
    generalize other.toList = ds at h
    induction h with
    | refl => rfl
    | tail _ hstep ih => exact ih.trans hstep.words_eq
  rw [identifier_eq_iff, hwords]

/-- A name that needs every step: a character to replace, a run to collapse, underscores to trim
and a reserved word to mark. -/
theorem isCanonical_identifier_upperEnd :
    Relation.ReflTransGen Respelled "é__End".toList "_End".toList ∧
      identifier "é__End" = "n_End" ∧ identifier "_End" = "n_End" := by
  have hreplaced : Respelled ([] ++ 'é' :: "__End".toList) ([] ++ '_' :: "__End".toList) :=
    .replaced (by decide) _ _
  have hrun : Respelled ([] ++ (List.replicate 3 '_' ++ "End".toList))
      ([] ++ (List.replicate 1 '_' ++ "End".toList)) := .run (by decide) (by decide) _ _
  have hspelled : Relation.ReflTransGen Respelled "é__End".toList "_End".toList :=
    (Relation.ReflTransGen.single hreplaced).tail hrun
  have hid : identifier "é__End" = "n_End" := by decide +kernel
  have hsame := (isCanonical_identifier "é__End").2.2.2 "_End" hspelled
  exact ⟨hspelled, hid, hsame.trans hid⟩

end Schematic
