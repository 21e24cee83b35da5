import Schematic.Drawing.Reference
import Schematic.Proofs.Hcl.Expression
import Schematic.Proofs.Text.Interpolation

/-!
# References of written traversals

A traversal leads from a root through names with dots between them, and behind each name but those
of its head there may be indices. Only the head of a traversal is a reference: all that follows it
is passed over, whatever indices and names it is made of, so one reference is found for each
traversal of an expression.

The scanner knows of what stands in front only whether a name could go on there. What is passed
over is passed over in both cases, and such pieces may be put together.

## Main definitions

- `Index`, `Segment`, `Chain` — written traversals
- `Chain.head`, `Chain.target?` — the head of a traversal and the node that it points at
- `chainList` — traversals with commas between them
- `heads` — the references that are found behind a known state
- `targets` — what the references of an expression point at

## Main statements

- `heads_chainList` — the references in a list of traversals
- `references_chainList` — the targets of an attribute with such a list
-/

namespace Schematic.Drawing

open Hcl (Identifier)

/-! ## Written traversals -/

/-- An index behind a name: a number, all items in either spelling, or a key. -/
inductive Index where
  | number (digits : List Char) (h : ∀ c ∈ digits, c.isDigit = true)
  | all
  | splat
  | key (literal : List Char) (h : ∀ c ∈ literal, c ≠ '"' ∧ c ≠ '\\' ∧ c ≠ '}')

def Index.chars : Index → List Char
  | number digits _ => '[' :: (digits ++ [']'])
  | all => ['[', '*', ']']
  | splat => ['.', '*']
  | key literal _ => '[' :: '"' :: (literal ++ ['"', ']'])

/-- A name with indices behind it. -/
structure Segment where
  name : Identifier
  indices : List Index

def Segment.indexChars (s : Segment) : List Char :=
  s.indices.flatMap Index.chars

/-- Segments, each behind a dot. -/
def segmentChars (segments : List Segment) : List Char :=
  segments.flatMap fun s => '.' :: (s.name.chars ++ s.indexChars)

/-- A name as text. -/
def nameText (name : Identifier) : String :=
  String.ofList name.chars

/-- A root and the segments that lead on from it. -/
structure Chain where
  root : Identifier
  first : Segment
  more : List Segment
  /-- The two names of a data source stand next to each other. -/
  indices_first : nameText root = "data" → more ≠ [] → first.indices = []

namespace Chain

variable (chain : Chain)

def chars : List Char :=
  chain.root.chars ++ segmentChars (chain.first :: chain.more)

/-- The node that a traversal points at. -/
def target? : Option String :=
  let root := nameText chain.root
  let first := nameText chain.first.name
  if root = "data" then
    chain.more.head?.map fun second => "data_" ++ first ++ "_" ++ nameText second.name
  else if root = "module" then some ("module_" ++ first)
  else if root ∈ valueRoots then none
  else some (root ++ "_" ++ first)

/-- The names that tell what a traversal is about: two behind the root of data, and otherwise the
root and one name. -/
def head : Traversal :=
  match chain.more with
  | second :: _ =>
    if nameText chain.root = "data" then ⟨true, nameText chain.first.name, nameText second.name⟩
    else ⟨false, nameText chain.root, nameText chain.first.name⟩
  | [] => ⟨false, nameText chain.root, nameText chain.first.name⟩

/-- What stands behind the head. -/
def tail : List Char :=
  match chain.more with
  | second :: more =>
    if nameText chain.root = "data" then second.indexChars ++ segmentChars more
    else chain.first.indexChars ++ segmentChars chain.more
  | [] => chain.first.indexChars

/-- The node of a traversal is the one that its head points at. -/
theorem target?_head : chain.head.target? = chain.target? := by
  have hmodule : "module" ∉ valueRoots := by decide
  unfold head target? Traversal.target?
  by_cases hdata : nameText chain.root = "data"
  · cases hmore : chain.more <;> simp [hdata]
  · by_cases hname : nameText chain.root = "module"
    · cases hmore : chain.more <;> simp [hname, hmodule]
    · cases hmore : chain.more <;> simp [hdata, hname]

end Chain

/-- Traversals with commas between them. -/
def chainList (chains : List Chain) : List Char :=
  ((chains.map Chain.chars).intersperse ", ".toList).flatten

theorem chainList_cons_cons (first second : Chain) (chains : List Chain) :
    chainList (first :: second :: chains) =
      first.chars ++ ',' :: ' ' :: chainList (second :: chains) := by
  simp [chainList]

/-! ## The scanner -/

/-- The references in a text without its literals; `joined` says whether a name could go on in
front of it. -/
def heads (joined : Bool) (cs : List Char) : List Traversal :=
  traversals joined (blankLiterals cs)

theorem blankLiterals_cons {c : Char} (hc : c ≠ '"') (rest : List Char) :
    blankLiterals (c :: rest) = c :: blankLiterals rest := by
  rw [blankLiterals, if_neg hc]

theorem blankLiterals_append {cs : List Char} (h : '"' ∉ cs) (rest : List Char) :
    blankLiterals (cs ++ rest) = cs ++ blankLiterals rest := by
  induction cs with
  | nil => rfl
  | cons c cs ih =>
    have hc : c ≠ '"' := fun heq => h (heq ▸ List.mem_cons_self)
    rw [List.cons_append, blankLiterals_cons hc, ih fun hmem => h (List.mem_cons_of_mem _ hmem)]
    rfl

theorem name?_eq_none {c : Char} (h : Text.isIdentStart c = false) (rest : List Char) :
    name? (c :: rest) = none := by
  rw [name?, if_neg (by simp [h])]

/-- No reference begins with a character that begins no name. -/
theorem traversal?_eq_none {c : Char} (h : Text.isIdentStart c = false) (rest : List Char) :
    traversal? (c :: rest) = none := by
  have hmark : afterDataMark? (c :: rest) = none := by
    unfold afterDataMark?
    split
    · next heq =>
      obtain ⟨rfl, -⟩ := List.cons.inj heq
      exact absurd h (by decide)
    · rfl
  have hpair : namePair? (c :: rest) = none := by
    rw [namePair?, name?_eq_none h]
  rw [traversal?, hmark, hpair]
  rfl

/-- Where no reference is found, the search goes on behind the character. -/
theorem traversals_of_none {c : Char} {rest : List Char} (h : traversal? (c :: rest) = none) :
    traversals false (c :: rest) = traversals (joins c) rest := by
  rw [traversals, if_neg (by decide)]
  split
  · next hfound => cases h.symm.trans hfound
  · rfl

/-- A reference is found at the front, and the search goes on behind it. -/
theorem traversals_of_some {cs left : List Char} {t : Traversal}
    (h : traversal? cs = some (t, left)) : traversals false cs = t :: traversals true left := by
  cases cs with
  | nil => cases h
  | cons c rest =>
    rw [traversals, if_neg (by decide)]
    split
    · next hfound =>
      obtain ⟨rfl, rfl⟩ := Prod.mk.inj (Option.some.inj (h.symm.trans hfound))
      rfl
    · next hfound => cases h.symm.trans hfound

@[simp] theorem heads_nil (joined : Bool) : heads joined [] = [] := by
  rw [heads, blankLiterals, traversals]

/-- Nothing begins where a name could go on. -/
theorem heads_true_cons {c : Char} (hquote : c ≠ '"') (rest : List Char) :
    heads true (c :: rest) = heads (joins c) rest := by
  rw [heads, blankLiterals_cons hquote, traversals, if_pos rfl]
  rfl

/-- Nothing begins with a character that begins no name. -/
theorem heads_cons {c : Char} (hquote : c ≠ '"') (hstart : Text.isIdentStart c = false)
    (joined : Bool) (rest : List Char) : heads joined (c :: rest) = heads (joins c) rest := by
  cases joined with
  | true => exact heads_true_cons hquote rest
  | false =>
    rw [heads, blankLiterals_cons hquote, traversals_of_none (traversal?_eq_none hstart _)]
    rfl

/-- What a literal holds is passed over up to its end. -/
theorem afterLiteral_append {literal : List Char} (h : ∀ c ∈ literal, c ≠ '"' ∧ c ≠ '\\')
    (rest : List Char) : afterLiteral (literal ++ rest) = afterLiteral rest := by
  induction literal with
  | nil => rfl
  | cons c literal ih =>
    obtain ⟨hquote, hescape⟩ := h c List.mem_cons_self
    rw [List.cons_append, afterLiteral]
    · exact ih fun d hd => h d (List.mem_cons_of_mem _ hd)
    · exact hquote
    · exact fun heq _ => hescape heq
    · exact fun _ _ heq _ => hescape heq

/-- A literal counts as a blank. -/
theorem heads_literal {literal : List Char} (h : ∀ c ∈ literal, c ≠ '"' ∧ c ≠ '\\')
    (joined : Bool) (rest : List Char) :
    heads joined ('"' :: (literal ++ '"' :: rest)) = heads false rest := by
  have hafter : afterLiteral (literal ++ '"' :: rest) = rest := afterLiteral_append h _
  have hblank := @heads_cons ' ' (by decide) (by decide) joined rest
  rw [heads, blankLiterals, if_pos rfl, hafter, ← blankLiterals_cons (by decide)]
  exact hblank

/-! ## What is passed over -/

/-- No reference begins within a text, whatever is in front of it and behind it. -/
def IsPassed (cs : List Char) : Prop :=
  ∀ joined, ∃ joined', ∀ rest, heads joined (cs ++ rest) = heads joined' rest

theorem isPassed_nil : IsPassed [] :=
  fun joined => ⟨joined, fun _ => rfl⟩

theorem IsPassed.append {cs ds : List Char} (hc : IsPassed cs) (hd : IsPassed ds) :
    IsPassed (cs ++ ds) := by
  intro joined
  obtain ⟨middle, hc⟩ := hc joined
  obtain ⟨joined', hd⟩ := hd middle
  exact ⟨joined', fun rest => by rw [List.append_assoc, hc, hd]⟩

theorem isPassed_flatMap {α : Type} {f : α → List Char} {xs : List α}
    (h : ∀ x ∈ xs, IsPassed (f x)) : IsPassed (xs.flatMap f) := by
  induction xs with
  | nil => exact isPassed_nil
  | cons x xs ih =>
    rw [List.flatMap_cons]
    exact (h x List.mem_cons_self).append (ih fun y hy => h y (List.mem_cons_of_mem _ hy))

/-- Characters none of which begins a name or a literal are passed over. -/
theorem isPassed_of_forall {cs : List Char}
    (h : ∀ c ∈ cs, c ≠ '"' ∧ Text.isIdentStart c = false) : IsPassed cs := by
  induction cs with
  | nil => exact isPassed_nil
  | cons c cs ih =>
    obtain ⟨hquote, hstart⟩ := h c List.mem_cons_self
    have hc : IsPassed [c] := fun joined => ⟨joins c, heads_cons hquote hstart joined⟩
    exact hc.append (ih fun d hd => h d (List.mem_cons_of_mem _ hd))

/-- A name goes on to its end. -/
theorem heads_true_append {cs : List Char} (h : ∀ c ∈ cs, Text.isIdentRest c = true)
    (rest : List Char) : heads true (cs ++ rest) = heads true rest := by
  induction cs with
  | nil => rfl
  | cons c cs ih =>
    have hc := h c List.mem_cons_self
    have hquote : c ≠ '"' := Text.ne_of_class hc (by decide)
    rw [List.cons_append, heads_true_cons hquote, joins, hc, Bool.true_or]
    exact ih fun d hd => h d (List.mem_cons_of_mem _ hd)

/-- A name behind a dot is passed over. -/
theorem isPassed_name (name : Identifier) : IsPassed ('.' :: name.chars) := by
  intro joined
  refine ⟨true, fun rest => ?_⟩
  rw [List.cons_append, heads_cons (by decide) (by decide)]
  exact heads_true_append name.isIdentRest_chars rest

theorem isPassed_index (index : Index) : IsPassed index.chars := by
  cases index with
  | number digits h =>
    refine isPassed_of_forall fun c hc => ?_
    rcases List.mem_cons.mp hc with rfl | hc
    · decide
    · rcases List.mem_append.mp hc with hc | hc
      · have hdigit := h c hc
        refine ⟨Text.ne_of_class hdigit (by decide), ?_⟩
        rw [← Bool.not_eq_true]
        intro hstart
        rw [Text.isDigit_eq_false_of_isIdentStart hstart] at hdigit
        cases hdigit
      · rw [List.mem_singleton.mp hc]
        decide
  | all => exact isPassed_of_forall (by decide)
  | splat => exact isPassed_of_forall (by decide)
  | key literal h =>
    intro joined
    refine ⟨joins ']', fun rest => ?_⟩
    have happend : (Index.key literal h).chars ++ rest =
        '[' :: '"' :: (literal ++ '"' :: (']' :: rest)) := by
      simp [Index.chars]
    rw [happend, heads_cons (by decide) (by decide),
      heads_literal fun c hc => ⟨(h c hc).1, (h c hc).2.1⟩, heads_cons (by decide) (by decide)]

theorem isPassed_indexChars (s : Segment) : IsPassed s.indexChars :=
  isPassed_flatMap fun index _ => isPassed_index index

theorem isPassed_segmentChars (segments : List Segment) : IsPassed (segmentChars segments) := by
  refine isPassed_flatMap fun s _ => ?_
  rw [← List.cons_append]
  exact (isPassed_name s.name).append (isPassed_indexChars s)

/-- Nothing behind the head of a traversal is a reference. -/
theorem Chain.isPassed_tail (chain : Chain) : IsPassed chain.tail := by
  unfold Chain.tail
  split
  · next second more hmore =>
    split
    · exact (isPassed_indexChars second).append (isPassed_segmentChars more)
    · exact (isPassed_indexChars chain.first).append (isPassed_segmentChars chain.more)
  · exact isPassed_indexChars chain.first

/-! ## What is found -/

/-- Text in front of which a name ends. -/
def EndsName (rest : List Char) : Prop :=
  ∀ c ∈ rest.head?, Text.isIdentRest c = false

theorem EndsName.blankLiterals {rest : List Char} (h : EndsName rest) :
    EndsName (blankLiterals rest) := by
  cases rest with
  | nil =>
    rw [Drawing.blankLiterals]
    exact h
  | cons c rest =>
    rw [Drawing.blankLiterals]
    split
    · rintro d hd
      exact Option.some.inj hd ▸ by decide
    · rintro d hd
      exact h d hd

theorem name?_append (name : Identifier) {rest : List Char} (h : EndsName rest) :
    name? (name.chars ++ rest) = some (name.chars, rest) := by
  have htake : rest.takeWhile Text.isIdentRest = [] := by
    cases rest with
    | nil => rfl
    | cons c rest => exact List.takeWhile_cons_of_neg (by simp [h c rfl])
  have hdrop : rest.dropWhile Text.isIdentRest = rest := by
    cases rest with
    | nil => rfl
    | cons c rest => exact List.dropWhile_cons_of_neg (by simp [h c rfl])
  rw [Identifier.chars, List.cons_append, name?, if_pos name.isIdentStart_first,
    List.takeWhile_append_of_pos name.isIdentRest_rest,
    List.dropWhile_append_of_pos name.isIdentRest_rest, htake, hdrop, List.append_nil]

theorem namePair?_append (root name : Identifier) {rest : List Char} (h : EndsName rest) :
    namePair? (root.chars ++ '.' :: (name.chars ++ rest)) =
      some (root.chars, name.chars, rest) := by
  have hpoint : EndsName ('.' :: (name.chars ++ rest)) := by
    rintro c hc
    exact Option.some.inj hc ▸ by decide
  rw [namePair?, name?_append root hpoint]
  simp only [name?_append name h, Option.map_some]

/-- Text in front of which no further name of a head follows. -/
def EndsHead (rest : List Char) : Prop :=
  EndsName rest ∧ ∀ after, rest = '.' :: after → name? after = none

theorem namePair?_eq_none (name : Identifier) {rest : List Char} (h : EndsHead rest) :
    namePair? (name.chars ++ rest) = none := by
  rw [namePair?, name?_append name h.1]
  split
  · next root after heq =>
    obtain ⟨-, rfl⟩ := Prod.mk.inj (Option.some.inj heq)
    rw [h.2 after rfl]
    rfl
  · rfl

/-- The mark of data is not part of a longer root. -/
theorem afterDataMark?_eq_none {root : Identifier} (h : nameText root ≠ "data")
    (rest : List Char) : afterDataMark? (root.chars ++ '.' :: rest) = none := by
  unfold afterDataMark?
  split
  · next after heq =>
    -- Both roots are what stands in front of the first dot.
    have hroot : '.' ∉ root.chars := Text.not_mem_of_class root.isIdentRest_chars (by decide)
    have hcut := Text.cutAtChar?_append hroot rest
    have hdata := @Text.cutAtChar?_append '.' "data".toList (by decide) after
    rw [heq] at hcut
    have hsame := (Prod.mk.inj (Option.some.inj (hcut.symm.trans hdata))).1
    exact absurd (by rw [nameText, hsame, String.ofList_toList]) h
  · rfl

/-- The reference at the front of a traversal of two names that is not one of data. -/
theorem traversal?_pair (root name : Identifier) {rest : List Char} (h : EndsName rest)
    (hdata : nameText root = "data" → EndsHead rest) :
    traversal? (root.chars ++ '.' :: (name.chars ++ rest)) =
      some (⟨false, nameText root, nameText name⟩, rest) := by
  have hmark : (afterDataMark? (root.chars ++ '.' :: (name.chars ++ rest))).bind namePair? =
      none := by
    by_cases hroot : nameText root = "data"
    · have hchars : root.chars = "data".toList := by
        rw [← hroot, nameText, String.toList_ofList]
      rw [hchars]
      exact namePair?_eq_none name (hdata hroot)
    · rw [afterDataMark?_eq_none hroot]
      rfl
  rw [traversal?, hmark, namePair?_append root name h]
  rfl

/-- The reference at the front of a traversal of data. -/
theorem traversal?_data (first second : Identifier) {rest : List Char} (h : EndsName rest) :
    traversal? ("data".toList ++ '.' :: (first.chars ++ '.' :: (second.chars ++ rest))) =
      some (⟨true, nameText first, nameText second⟩, rest) := by
  have hmark : (afterDataMark? ("data".toList ++
      '.' :: (first.chars ++ '.' :: (second.chars ++ rest)))).bind namePair? =
        some (first.chars, second.chars, rest) :=
    namePair?_append first second h
  rw [traversal?, hmark]
  rfl

/-! ## Traversals with commas between them -/

/-- What is found at the front is a reference, and the search goes on behind it. -/
theorem heads_of_traversal? {cs left : List Char} {t : Traversal}
    (h : traversal? (blankLiterals cs) = some (t, blankLiterals left)) :
    heads false cs = t :: heads true left :=
  traversals_of_some h

/-- Text at the end of a list or in front of a comma. -/
def EndsItem (rest : List Char) : Prop :=
  ∀ c ∈ rest.head?, c = ','

theorem EndsItem.endsName {rest : List Char} (h : EndsItem rest) : EndsName rest := by
  intro c hc
  rw [h c hc]
  decide

theorem endsName_point (rest : List Char) : EndsName ('.' :: rest) := by
  intro c hc
  exact Option.some.inj hc ▸ by decide

/-- A name ends in front of an index. -/
theorem endsName_index (index : Index) (rest : List Char) : EndsName (index.chars ++ rest) := by
  intro c hc
  cases index <;> exact Option.some.inj hc ▸ by decide

theorem endsName_indexChars (s : Segment) {rest : List Char} (h : EndsName rest) :
    EndsName (s.indexChars ++ rest) := by
  rw [Segment.indexChars]
  cases s.indices with
  | nil => exact h
  | cons index indices =>
    rw [List.flatMap_cons, List.append_assoc]
    exact endsName_index index _

theorem endsName_segmentChars (segments : List Segment) {rest : List Char} (h : EndsName rest) :
    EndsName (segmentChars segments ++ rest) := by
  cases segments with
  | nil => exact h
  | cons s segments => exact endsName_point _

/-- Behind an index no name of a head follows. -/
theorem endsHead_indexChars (s : Segment) {rest : List Char} (h : EndsItem rest) :
    EndsHead (blankLiterals (s.indexChars ++ rest)) := by
  refine ⟨(endsName_indexChars s h.endsName).blankLiterals, ?_⟩
  rw [Segment.indexChars]
  cases s.indices with
  | nil =>
    cases rest with
    | nil =>
      rw [List.flatMap_nil, List.append_nil, blankLiterals]
      exact fun after hafter => by cases hafter
    | cons c rest =>
      rw [h c rfl, List.flatMap_nil, List.nil_append, blankLiterals_cons (by decide)]
      exact fun after hafter => by cases hafter
  | cons index indices =>
    rw [List.flatMap_cons, List.append_assoc]
    cases index with
    | splat =>
      -- Behind the dot there is a star, which begins no name.
      simp only [Index.chars, List.cons_append, List.nil_append]
      rw [blankLiterals_cons (by decide), blankLiterals_cons (by decide)]
      rintro after hafter
      obtain ⟨-, rfl⟩ := List.cons.inj hafter
      exact name?_eq_none (by decide) _
    | number digits h =>
      simp only [Index.chars, List.cons_append]
      rw [blankLiterals_cons (by decide)]
      exact fun after hafter => by cases hafter
    | all =>
      simp only [Index.chars, List.cons_append]
      rw [blankLiterals_cons (by decide)]
      exact fun after hafter => by cases hafter
    | key literal h =>
      simp only [Index.chars, List.cons_append]
      rw [blankLiterals_cons (by decide)]
      exact fun after hafter => by cases hafter

theorem blankLiterals_name (name : Identifier) (rest : List Char) :
    blankLiterals (name.chars ++ rest) = name.chars ++ blankLiterals rest :=
  blankLiterals_append (Text.not_mem_of_class name.isIdentRest_chars (by decide)) rest

/-- The reference of two names, unless they are the first ones of data. -/
theorem heads_pair (root name : Identifier) {rest : List Char} (h : EndsName rest)
    (hdata : nameText root = "data" → EndsHead (blankLiterals rest)) :
    heads false (root.chars ++ '.' :: (name.chars ++ rest)) =
      ⟨false, nameText root, nameText name⟩ :: heads true rest := by
  apply heads_of_traversal?
  rw [blankLiterals_name, blankLiterals_cons (by decide), blankLiterals_name]
  exact traversal?_pair root name h.blankLiterals hdata

theorem heads_data {root : Identifier} (hroot : nameText root = "data")
    (first second : Identifier) {rest : List Char} (h : EndsName rest) :
    heads false (root.chars ++ '.' :: (first.chars ++ '.' :: (second.chars ++ rest))) =
      ⟨true, nameText first, nameText second⟩ :: heads true rest := by
  have hchars : root.chars = "data".toList := by
    rw [← hroot, nameText, String.toList_ofList]
  apply heads_of_traversal?
  rw [blankLiterals_name, blankLiterals_cons (by decide), blankLiterals_name,
    blankLiterals_cons (by decide), blankLiterals_name, hchars]
  exact traversal?_data first second h.blankLiterals

/-- The reference at the front of a traversal is its head, and then comes what is behind that. -/
theorem heads_chars (chain : Chain) {rest : List Char} (h : EndsItem rest) :
    heads false (chain.chars ++ rest) = chain.head :: heads true (chain.tail ++ rest) := by
  have hname := h.endsName
  have hsplit : chain.chars ++ rest = chain.root.chars ++ '.' :: (chain.first.name.chars ++
      (chain.first.indexChars ++ (segmentChars chain.more ++ rest))) := by
    simp [Chain.chars, segmentChars]
  rw [hsplit]
  unfold Chain.head Chain.tail
  split
  · next second more hmore =>
    rw [hmore]
    split
    · next hroot =>
      -- No index parts the two names of a data source.
      have hindices : chain.first.indexChars = [] := by
        rw [Segment.indexChars, chain.indices_first hroot (by simp [hmore])]
        rfl
      have hsegments : segmentChars (second :: more) ++ rest =
          '.' :: (second.name.chars ++ (second.indexChars ++ segmentChars more ++ rest)) := by
        simp [segmentChars]
      rw [hindices, List.nil_append, hsegments]
      apply heads_data hroot
      rw [List.append_assoc]
      exact endsName_indexChars second (endsName_segmentChars more hname)
    · next hroot =>
      rw [List.append_assoc]
      apply heads_pair
      · exact endsName_indexChars _ (endsName_segmentChars _ hname)
      · exact fun hdata => absurd hdata hroot
  · next hmore =>
    rw [hmore]
    apply heads_pair
    · exact endsName_indexChars _ hname
    · exact fun _ => endsHead_indexChars _ h

/-- One reference is found for each traversal of a list. -/
theorem heads_chainList (chains : List Chain) :
    heads false (chainList chains) = chains.map Chain.head := by
  induction chains with
  | nil => exact heads_nil false
  | cons first chains ih =>
    obtain ⟨joined, htail⟩ := first.isPassed_tail true
    cases chains with
    | nil =>
      have hsingle : chainList [first] = first.chars ++ [] := by simp [chainList]
      rw [hsingle, heads_chars first (fun c hc => by cases hc), htail, heads_nil]
      rfl
    | cons second chains =>
      have hcomma : EndsItem (',' :: ' ' :: chainList (second :: chains)) :=
        fun c hc => (Option.some.inj hc).symm
      -- Behind the comma and the blank a reference may begin, as at the very front.
      have hblank : joins ' ' = false := by decide
      rw [chainList_cons_cons, heads_chars first hcomma, htail, heads_cons (by decide) (by decide),
        heads_cons (by decide) (by decide), hblank, ih]
      rfl

/-! ## References of an attribute -/

theorem brace_not_mem_name (name : Identifier) : '}' ∉ name.chars :=
  Text.not_mem_of_class name.isIdentRest_chars (by decide)

theorem brace_not_mem_index (index : Index) : '}' ∉ index.chars := by
  cases index with
  | number digits h =>
    have hdigits : '}' ∉ digits := Text.not_mem_of_class h (by decide)
    simp [Index.chars, hdigits]
  | all => decide
  | splat => decide
  | key literal h =>
    have hliteral : '}' ∉ literal := fun hmem => (h '}' hmem).2.2 rfl
    simp [Index.chars, hliteral]

theorem brace_not_mem_segmentChars (segments : List Segment) : '}' ∉ segmentChars segments := by
  rw [segmentChars, List.mem_flatMap]
  rintro ⟨s, -, hmem⟩
  rcases List.mem_cons.mp hmem with hpoint | hmem
  · cases hpoint
  · rcases List.mem_append.mp hmem with hmem | hmem
    · exact brace_not_mem_name s.name hmem
    · obtain ⟨index, -, hmem⟩ := List.mem_flatMap.mp hmem
      exact brace_not_mem_index index hmem

theorem brace_not_mem_chainList (chains : List Chain) : '}' ∉ chainList chains := by
  have hchain (chain : Chain) : '}' ∉ chain.chars := by
    intro hmem
    rcases List.mem_append.mp hmem with hmem | hmem
    · exact brace_not_mem_name chain.root hmem
    · exact brace_not_mem_segmentChars _ hmem
  induction chains with
  | nil => exact List.not_mem_nil
  | cons first chains ih =>
    cases chains with
    | nil => simpa [chainList] using hchain first
    | cons second chains =>
      rw [chainList_cons_cons]
      simp [hchain first, ih]

theorem toList_interpolated (cs : List Char) :
    (Hcl.interpolated cs).toList = '$' :: '{' :: (cs ++ '}' :: []) := by
  rw [Hcl.interpolated, String.toList_ofList]
  rfl

/-- An interpolation embeds what stands between its braces. -/
theorem interpolations_interpolated {cs : List Char} (h : '}' ∉ cs) :
    Text.interpolations (Hcl.interpolated cs).toList = [cs] := by
  rw [toList_interpolated, Text.interpolations_append h, Text.interpolations]

/-- The targets of the references in an expression. -/
def targets (expression : List Char) : List String :=
  (heads false expression).filterMap Traversal.target?

theorem referencesInText_eq_flatMap (text : String) :
    referencesInText text = (Text.interpolations text.toList).flatMap targets :=
  rfl

theorem referencesInText_interpolated {cs : List Char} (h : '}' ∉ cs) :
    referencesInText (Hcl.interpolated cs) = targets cs := by
  rw [referencesInText_eq_flatMap, interpolations_interpolated h, List.flatMap_singleton]

theorem targets_chainList (chains : List Chain) :
    targets (chainList chains) = chains.filterMap Chain.target? := by
  rw [targets, heads_chainList, List.filterMap_map]
  exact congrArg (List.filterMap · chains) (funext Chain.target?_head)

/-- The references of a single attribute are those of its texts, each where it comes first. -/
theorem references_singleton {key : String} (hkey : key ≠ "depends_on") (value : Value) :
    references [(key, value)] = (value.strings.flatMap referencesInText).eraseDups := by
  rw [references, Text.distinct_eq_eraseDups]
  simp [hkey]

/-- The references of an attribute with a list of traversals are the targets of these, each where
it comes first. -/
theorem references_chainList {key : String} (hkey : key ≠ "depends_on") (chains : List Chain) :
    references [(key, .str (Hcl.interpolated (chainList chains)))] =
      (chains.filterMap Chain.target?).eraseDups := by
  have hstrings : (Value.str (Hcl.interpolated (chainList chains))).strings =
      [Hcl.interpolated (chainList chains)] := rfl
  rw [references_singleton hkey, hstrings, List.flatMap_singleton,
    referencesInText_interpolated (brace_not_mem_chainList chains), targets_chainList]

/-- A block refers to the targets of all expressions in the texts of its attributes. -/
theorem mem_references_of_mem_targets {config : Entries Value} {key : String} {value : Value}
    (hentry : (key, value) ∈ config) (hkey : key ≠ "depends_on") {text : String}
    (htext : text ∈ value.strings) {expression : List Char}
    (hexpression : expression ∈ Text.interpolations text.toList) {target : String}
    (htarget : target ∈ targets expression) : target ∈ references config := by
  rw [references, Text.mem_distinct, List.mem_flatMap]
  refine ⟨(key, value), List.mem_filter.mpr ⟨hentry, by simp [hkey]⟩, ?_⟩
  rw [List.mem_flatMap]
  exact ⟨text, htext, List.mem_flatMap.mpr ⟨expression, hexpression, htarget⟩⟩

end Schematic.Drawing
