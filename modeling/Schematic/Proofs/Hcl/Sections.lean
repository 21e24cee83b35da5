import Schematic.Hcl.Configuration
import Schematic.Proofs.Hcl.Header
import Schematic.Proofs.Success

/-!
# The sections of a configuration

The tree of a configuration has a section for each kind of block. The entries of a section are
found under the labels of the blocks: under the first one, or under the first two for blocks that
have a type and a name. What is under such an address is always a mapping, so an address has an
entry exactly if a block of the text begins with these labels.

## Main definitions

- `Section`, `sections` — the kinds of blocks that have a section
- `hasEntry`, `hasTyped` — a mapping stands under a name, or under a type and a name
- `IsMadeOf` — the sections of a tree are made of the blocks of a text

## Main statements

- `hasEntry_byName_iff`, `hasEntry_byType_iff` — the entries that blocks make
- `isMadeOf_configuration` — what the sections of the tree of a text are
- `isMap_path_configuration_iff` — the entries of the tree of a text
- `configuration_ne_nil_iff` — when there are any
-/

namespace Schematic.Hcl

/-! ## Kinds of blocks -/

/-- A kind of blocks, with the number of labels that its entries are found under. -/
structure Section where
  keyword : String
  depth : Nat
deriving DecidableEq, Repr

/-- The sections of a configuration. -/
def sections : List Section :=
  [⟨"provider", 1⟩, ⟨"resource", 2⟩, ⟨"data", 2⟩, ⟨"variable", 1⟩, ⟨"module", 1⟩]

theorem isKeyword_of_mem_sections {s : Section} (h : s ∈ sections) :
    IsKeyword s.keyword.toList := by
  simp only [sections, List.mem_cons, List.not_mem_nil, or_false] at h
  rcases h with rfl | rfl | rfl | rfl | rfl <;> exact ⟨by decide, by decide⟩

/-! ## Entries -/

/-- A mapping stands under a key. -/
def hasEntry (entries : Entries Value) (key : String) : Bool :=
  ((entries.get? key).getD .null).isMap

theorem hasEntry_insert_iff {entries : Entries Value} {key name : String} {value : Value}
    (hvalue : value.isMap = true) : hasEntry (entries.insert name value) key = true ↔
      key = name ∨ hasEntry entries key = true := by
  by_cases heq : key = name
  · subst heq
    simp [hasEntry, hvalue]
  · simp [hasEntry, Entries.get?_insert_of_ne heq, heq]

/-- A mapping stands under a type and, within it, under a name. -/
def hasTyped (entries : Entries Value) (type name : String) : Bool :=
  hasEntry ((entries.get? type).getD .null).entries name

theorem hasTyped_insertTyped_iff {found : Entries Value} {type name t n : String} {value : Value}
    (hvalue : value.isMap = true) : hasTyped (insertTyped found t n value) type name = true ↔
      (type = t ∧ name = n) ∨ hasTyped found type name = true := by
  by_cases heq : type = t
  · subst heq
    -- A type that is not there yet starts without names.
    have hsame : ((found.get? type).getD (.map [])).entries =
        ((found.get? type).getD .null).entries := by
      cases found.get? type <;> rfl
    rw [hasTyped, insertTyped, hsame, Entries.get?_insert_self]
    show hasEntry (Entries.insert n value _) name = true ↔ _
    rw [hasEntry_insert_iff hvalue, hasTyped]
    simp
  · simp [hasTyped, insertTyped, Entries.get?_insert_of_ne heq, heq]

/-- Blocks with one label make an entry for each first label. -/
theorem hasEntry_byName_iff {value : String → Block → Value}
    (hvalue : ∀ name block, (value name block).isMap = true) {bs : List Block} {name : String} :
    hasEntry (byName value bs) name = true ↔ ∃ block ∈ bs, [name] <+: block.labels := by
  rw [byName, foldl_iff (P := fun found => hasEntry found name = true)
    (q := fun block => [name] <+: block.labels)]
  · simp [hasEntry, Entries.get?, Value.isMap]
  · intro block _ found
    cases hlabels : block.labels with
    | nil => simp
    | cons first more =>
      rw [hasEntry_insert_iff (hvalue first block)]
      simp [List.cons_prefix_cons, or_comm]

/-- Blocks with a type and a name make an entry for each of the two. -/
theorem hasTyped_byType_iff {value : String → Block → Except NumberError Value}
    (hvalue : ∀ name block v, value name block = .ok v → v.isMap = true) {bs : List Block}
    {entries : Entries Value} (h : byType value bs = .ok entries) {type name : String} :
    hasTyped entries type name = true ↔ ∃ block ∈ bs, [type, name] <+: block.labels := by
  rw [byType] at h
  rw [foldlM_iff (P := fun found => hasTyped found type name = true)
    (q := fun block => [type, name] <+: block.labels) ?_ h]
  · simp [hasTyped, hasEntry, Entries.get?, Value.isMap, Value.entries]
  · intro block _ found found' hstep
    cases hlabels : block.labels with
    | nil =>
      rw [hlabels] at hstep
      obtain rfl := Except.ok.inj hstep
      simp
    | cons t rest =>
      cases rest with
      | nil =>
        -- A block with a type and no name leaves everything as it was.
        rw [hlabels] at hstep
        obtain rfl := Except.ok.inj hstep
        simp
      | cons n more =>
        rw [hlabels] at hstep
        obtain ⟨v, hv, hinsert⟩ := exists_of_bind_eq_ok hstep
        obtain rfl := Except.ok.inj hinsert
        rw [hasTyped_insertTyped_iff (hvalue n block v hv)]
        simp [List.cons_prefix_cons, or_comm]

/-! ## The tree of a text -/

theorem get?_filled_of_ne {key other : String} (hne : other ≠ key) (es : Entries Value) :
    Entries.get? key (filled other es) = none := by
  unfold filled
  split <;> simp [Entries.get?, hne]

theorem get?_filled_self (key : String) (es : Entries Value) :
    Entries.get? key (filled key es) = if es.isEmpty then none else some (Value.map es) := by
  unfold filled
  split <;> simp [Entries.get?, *]

theorem get?_flatMap_filled_of_not_mem {parts : List (String × Entries Value)} {key : String}
    (h : key ∉ parts.map Prod.fst) :
    Entries.get? key (parts.flatMap fun part => filled part.1 part.2) = none := by
  induction parts with
  | nil => rfl
  | cons part parts ih =>
    rw [List.map_cons, List.mem_cons, not_or] at h
    rw [List.flatMap_cons, Entries.get?_append, get?_filled_of_ne (Ne.symm h.1), ih h.2]
    rfl

/-- A section of a tree holds its entries, also if it is left out because it has none. -/
theorem getEntries_flatMap_filled {parts : List (String × Entries Value)}
    (hkeys : (parts.map Prod.fst).Nodup) {key : String} {es : Entries Value}
    (h : (key, es) ∈ parts) :
    (Value.map (parts.flatMap fun part => filled part.1 part.2)).getEntries key = es := by
  show ((Entries.get? key (parts.flatMap fun part => filled part.1 part.2)).getD
    Value.null).entries = es
  induction parts with
  | nil => cases h
  | cons part parts ih =>
    rw [List.map_cons, List.nodup_cons] at hkeys
    rw [List.flatMap_cons, Entries.get?_append]
    rcases List.mem_cons.mp h with rfl | h
    · rw [get?_filled_self, get?_flatMap_filled_of_not_mem hkeys.1]
      cases es <;> rfl
    · have hne : part.1 ≠ key := fun heq => hkeys.1 (heq ▸ List.mem_map_of_mem h)
      rw [get?_filled_of_ne hne, Option.none_or]
      exact ih hkeys.2 h

/-- A name has an entry in a section of one label if a block of the section has that label. -/
theorem isMap_path_name_iff {tree : Entries Value} {keyword : String} {es : Entries Value}
    (hes : (Value.map tree).getEntries keyword = es) {bs : List Block}
    (h : ∀ name, hasEntry es name = true ↔ ∃ block ∈ bs, [name] <+: block.labels)
    {address : List String} (haddress : address.length = 1) :
    ((Value.map tree).path (keyword :: address)).isMap = true ↔
      ∃ block ∈ bs, address <+: block.labels := by
  obtain ⟨name, rfl⟩ := List.length_eq_one_iff.mp haddress
  rw [← h name, ← hes]
  rfl

/-- A type and a name have an entry in a section of two labels if a block begins with them. -/
theorem isMap_path_typed_iff {tree : Entries Value} {keyword : String} {es : Entries Value}
    (hes : (Value.map tree).getEntries keyword = es) {bs : List Block}
    (h : ∀ type name, hasTyped es type name = true ↔ ∃ block ∈ bs, [type, name] <+: block.labels)
    {address : List String} (haddress : address.length = 2) :
    ((Value.map tree).path (keyword :: address)).isMap = true ↔
      ∃ block ∈ bs, address <+: block.labels := by
  obtain ⟨type, name, rfl⟩ := List.length_eq_two.mp haddress
  rw [← h type name, ← hes]
  rfl

/-- The sections of the tree of a text are made of the blocks of their keywords. -/
structure IsMadeOf (cs : List Char) (tree : Entries Value) : Prop where
  provider : (Value.map tree).getEntries "provider" =
    byName (fun name _ => named name) (blocks "provider" cs)
  resource : byType (fun _ block => return .map (← attributes block.body))
    (blocks "resource" cs) = .ok ((Value.map tree).getEntries "resource")
  data : byType (fun name _ => return named name) (blocks "data" cs) =
    .ok ((Value.map tree).getEntries "data")
  input : (Value.map tree).getEntries "variable" =
    byName (fun name _ => named name) (blocks "variable" cs)
  module : (Value.map tree).getEntries "module" = byName moduleEntry (blocks "module" cs)

theorem isMadeOf_configuration {cs : List Char} {tree : Entries Value}
    (h : configuration cs = .ok tree) : IsMadeOf cs tree := by
  obtain ⟨resources, hresources, h⟩ := exists_of_bind_eq_ok h
  obtain ⟨data, hdata, h⟩ := exists_of_bind_eq_ok h
  have htree := (Except.ok.inj h).symm
  have hget (key : String) (es : Entries Value)
      (hmem : (key, es) ∈ [("provider", byName (fun name _ => named name) (blocks "provider" cs)),
        ("resource", resources), ("data", data),
        ("variable", byName (fun name _ => named name) (blocks "variable" cs)),
        ("module", byName moduleEntry (blocks "module" cs))]) :
      (Value.map tree).getEntries key = es := by
    rw [← getEntries_flatMap_filled (by simp) hmem, htree]
    simp only [List.flatMap_cons, List.flatMap_nil, List.append_nil, List.append_assoc]
  constructor
  · exact hget "provider" _ (by simp)
  · rw [hget "resource" resources (by simp), hresources]
  · rw [hget "data" data (by simp), hdata]
  · exact hget "variable" _ (by simp)
  · exact hget "module" _ (by simp)

/-- An address has an entry in the tree of a text if a block of the text begins with it. -/
theorem isMap_path_configuration_iff {cs : List Char} {tree : Entries Value}
    (h : configuration cs = .ok tree) {s : Section} (hs : s ∈ sections) {address : List String}
    (haddress : address.length = s.depth) :
    ((Value.map tree).path (s.keyword :: address)).isMap = true ↔
      ∃ block ∈ blocks s.keyword cs, address <+: block.labels := by
  have htree := isMadeOf_configuration h
  -- Every section is made of blocks in one of two ways, whose values are always mappings.
  simp only [sections, List.mem_cons, List.not_mem_nil, or_false] at hs
  rcases hs with rfl | rfl | rfl | rfl | rfl
  · refine isMap_path_name_iff htree.provider (fun name => ?_) haddress
    exact hasEntry_byName_iff fun _ _ => rfl
  · refine isMap_path_typed_iff rfl (fun type name => ?_) haddress
    refine hasTyped_byType_iff (fun _ block v hv => ?_) htree.resource
    obtain ⟨entries, -, hentries⟩ := exists_of_bind_eq_ok hv
    exact Except.ok.inj hentries ▸ rfl
  · refine isMap_path_typed_iff rfl (fun type name => ?_) haddress
    refine hasTyped_byType_iff (fun name _ v hv => ?_) htree.data
    exact Except.ok.inj hv ▸ rfl
  · refine isMap_path_name_iff htree.input (fun name => ?_) haddress
    exact hasEntry_byName_iff fun _ _ => rfl
  · refine isMap_path_name_iff htree.module (fun name => ?_) haddress
    exact hasEntry_byName_iff fun _ _ => rfl

/-! ## Trees that are not empty -/

theorem insert_ne_nil (found : Entries Value) (name : String) (value : Value) :
    found.insert name value ≠ [] := by
  cases found with
  | nil => exact List.cons_ne_nil _ _
  | cons entry rest =>
    rw [Entries.insert]
    split <;> exact List.cons_ne_nil _ _

/-- Blocks make an entry by their names if one of them has any label. -/
theorem byName_ne_nil_iff {value : String → Block → Value} {bs : List Block} :
    byName value bs ≠ [] ↔ ∃ block ∈ bs, 1 ≤ block.labels.length := by
  rw [byName, foldl_iff (P := fun found => found ≠ [])
    (q := fun block => 1 ≤ block.labels.length)]
  · simp
  · intro block _ found
    cases hlabels : block.labels with
    | nil => simp
    | cons first more => simp [insert_ne_nil]

/-- Blocks make an entry by their types and names if one of them has two labels. -/
theorem byType_ne_nil_iff {value : String → Block → Except NumberError Value} {bs : List Block}
    {entries : Entries Value} (h : byType value bs = .ok entries) :
    entries ≠ [] ↔ ∃ block ∈ bs, 2 ≤ block.labels.length := by
  rw [byType] at h
  rw [foldlM_iff (P := fun found => found ≠ []) (q := fun block => 2 ≤ block.labels.length) ?_ h]
  · simp
  · intro block _ found found' hstep
    cases hlabels : block.labels with
    | nil =>
      rw [hlabels] at hstep
      obtain rfl := Except.ok.inj hstep
      simp
    | cons t rest =>
      cases rest with
      | nil =>
        rw [hlabels] at hstep
        obtain rfl := Except.ok.inj hstep
        simp
      | cons n more =>
        rw [hlabels] at hstep
        obtain ⟨v, -, hinsert⟩ := exists_of_bind_eq_ok hstep
        obtain rfl := Except.ok.inj hinsert
        simp [insertTyped, insert_ne_nil]

theorem filled_eq_nil_iff {key : String} {es : Entries Value} : filled key es = [] ↔ es = [] := by
  unfold filled
  split
  · next hempty => simp [List.isEmpty_iff.mp hempty]
  · next hempty => simpa [List.isEmpty_iff] using hempty

/-- The tree of a text is not empty if a block of some section has as many labels as that needs. -/
theorem configuration_ne_nil_iff {cs : List Char} {tree : Entries Value}
    (h : configuration cs = .ok tree) : tree ≠ [] ↔
      ∃ s ∈ sections, ∃ block ∈ blocks s.keyword cs, s.depth ≤ block.labels.length := by
  obtain ⟨resources, hresources, h⟩ := exists_of_bind_eq_ok h
  obtain ⟨data, hdata, h⟩ := exists_of_bind_eq_ok h
  have htree := (Except.ok.inj h).symm
  have hparts : tree ≠ [] ↔ byName (fun name _ => named name) (blocks "provider" cs) ≠ [] ∨
      resources ≠ [] ∨ data ≠ [] ∨
      byName (fun name _ => named name) (blocks "variable" cs) ≠ [] ∨
      byName moduleEntry (blocks "module" cs) ≠ [] := by
    rw [htree]
    simp only [ne_eq, List.append_eq_nil_iff, filled_eq_nil_iff, not_and_or, or_assoc]
  rw [hparts, byName_ne_nil_iff, byType_ne_nil_iff hresources, byType_ne_nil_iff hdata,
    byName_ne_nil_iff, byName_ne_nil_iff]
  simp only [sections, List.exists_mem_cons_iff, List.not_mem_nil, false_and, exists_false,
    or_false]

end Schematic.Hcl
