import Schematic.Hcl.Configuration
import Schematic.Proofs.Hcl.Attributes

/-!
# Reading written resources

The text that resources are written as is read as the tree that they stand for. Each resource is
one header and one closed block, wherever it stands in the text, since braces in quoted texts and
comments do not count and those of a body are balanced. Reading the bodies one after the other
puts each resource under its type and name.

## Main statements

- `headersFrom_source` — the headers of a written text
- `closedBlocks_source` — its blocks, with their bodies
- `foldl_insertTyped` — resources one after the other, by type and name
- `configuration_source` — a written text is read as its tree
-/

namespace Schematic.Hcl

open Lexeme
open Text (unlines unlines_cons unlines_append)

/-! ## The text of a resource -/

namespace Resource

variable (r : Resource)

/-- The text of one resource. -/
def chars : List Char :=
  r.headLine ++ (r.bodyText ++ ['}', '\n'])

theorem chars_eq_unlines : r.chars = unlines r.lines := by
  rw [chars, bodyText, lines, unlines_cons, unlines_append, List.cons_append]
  rfl

end Resource

theorem source_cons (r : Resource) (rs : List Resource) :
    source (r :: rs) = r.chars ++ source rs := by
  rw [source, List.flatMap_cons, unlines_append, ← r.chars_eq_unlines]
  rfl

namespace Resource

variable (r : Resource)

/-- The braces of a body are balanced. -/
theorem exists_balanced_bodyText : ∃ ls, HasLexemes r.bodyText ls ∧ Balanced ls := by
  obtain ⟨as, has, hflat⟩ := r.isFlat_attributeText
  cases htags : r.tags with
  | none => exact ⟨as, by rw [r.bodyText_of_none htags]; exact has, Balanced.of_isFlat hflat⟩
  | some tags =>
    obtain ⟨ts, hts, hbrace⟩ := isBraceless_tagText tags
    obtain ⟨gs, hgs, hgap⟩ : IsFlat "  tags = ".toList := isFlat_plain (by decide)
    have hfeed := hasLexemes_char (c := '\n') (by decide)
    have hblock := hasLexemes_openBrace.append
      (hts.append (hasLexemes_closeBrace.append hfeed))
    refine ⟨_, by rw [r.bodyText_of_some htags]; exact (has.append hgs).append hblock, ?_⟩
    have hend : Balanced [other '\n'] := .cons (by simp) (by simp) .nil
    exact ((Balanced.of_isFlat hflat).append (Balanced.of_isFlat hgap)).append
      (.block (Balanced.of_forall hbrace) hend)

/-! ## Headers -/

/-- Behind the first line of a resource there is no header. -/
theorem isNoHeader_of_mem {keyword : List Char} (h : IsKeyword keyword) :
    ∀ line ∈ r.bodyLines ++ ["\x7d".toList], IsNoHeader keyword line := by
  have hclose : IsNoHeader keyword ['}'] := ⟨by decide, fun rest => header?_closeBrace h _⟩
  have hcloseTags : IsNoHeader keyword "  \x7d".toList := by
    refine ⟨by decide, fun rest => ?_⟩
    show header? keyword (' ' :: ' ' :: '}' :: '\n' :: rest) = none
    rw [header?_gap h (by decide), header?_gap h (by decide), header?_closeBrace h]
  have hopenTags : IsNoHeader keyword "  tags = \x7b".toList := by
    refine ⟨by decide, fun rest => ?_⟩
    show header? keyword (' ' :: ' ' :: ("tags".toList ++ ' ' :: '=' :: ' ' :: '{' :: '\n' :: rest))
      = none
    rw [header?_gap h (by decide), header?_gap h (by decide),
      header?_assignment h (by decide) (by decide)]
  -- Attributes first, then the tags with the lines around them, then the closing brace.
  intro line hline
  rw [bodyLines, List.append_assoc] at hline
  rcases List.mem_append.mp hline with hline | hline
  · obtain ⟨a, -, rfl⟩ := List.mem_map.mp hline
    exact ⟨a.feed_not_mem_line, a.header?_line h⟩
  · rcases List.mem_append.mp hline with hline | hline
    · cases htags : r.tags with
      | none => simp [tagLines, htags] at hline
      | some tags =>
        rw [tagLines, htags] at hline
        rcases List.mem_cons.mp hline with rfl | hline
        · exact hopenTags
        · rcases List.mem_append.mp hline with hline | hline
          · obtain ⟨tag, -, rfl⟩ := List.mem_map.mp hline
            exact ⟨tag.feed_not_mem_line, tag.header?_line h⟩
          · exact List.mem_singleton.mp hline ▸ hcloseTags
    · exact List.mem_singleton.mp hline ▸ hclose

/-- The header of a resource, which starts at `offset`. -/
def header (offset : Nat) : Header :=
  ⟨offset, [String.ofList r.type, String.ofList r.name], offset + r.headLine.length - 1⟩

/-- A resource is one header of its keyword. -/
theorem headersFrom_chars (offset : Nat) (rest : List Char) :
    headersFrom "resource".toList offset true 0 (r.chars ++ rest) =
      r.header offset :: headersFrom "resource".toList (offset + r.chars.length) true 0 rest := by
  have hlength : r.chars.length =
      r.headLine.length + 1 + (unlines (r.bodyLines ++ ["\x7d".toList])).length := by
    rw [chars_eq_unlines, lines, unlines_cons, List.length_append, List.length_cons]
    omega
  have hne : r.headLine ≠ [] := by
    unfold headLine
    simp
  rw [hlength, chars_eq_unlines, lines, unlines_cons, List.append_assoc, List.cons_append,
    headersFrom_header hne r.feed_not_mem_headLine (r.header?_headLine _),
    headersFrom_unlines (r.isNoHeader_of_mem ⟨by decide, by decide⟩)]
  rw [← Nat.add_assoc, ← Nat.add_assoc]
  rfl

/-- It is no header of another keyword. -/
theorem headersFrom_chars_of_ne {k : Char} {ks : List Char} (h : IsKeyword (k :: ks))
    (hk : k ≠ 'r') (offset : Nat) (rest : List Char) :
    headersFrom (k :: ks) offset true 0 (r.chars ++ rest) =
      headersFrom (k :: ks) (offset + r.chars.length) true 0 rest := by
  have hall : ∀ line ∈ r.lines, IsNoHeader (k :: ks) line := by
    intro line hline
    rcases List.mem_cons.mp hline with rfl | hline
    · exact ⟨r.feed_not_mem_headLine, fun rest => r.header?_headLine_of_ne hk _⟩
    · exact r.isNoHeader_of_mem h line hline
  rw [chars_eq_unlines, headersFrom_unlines hall]

end Resource

/-- The headers of resources one after the other. -/
def headersAt (offset : Nat) : List Resource → List Header
  | [] => []
  | r :: rs => r.header offset :: headersAt (offset + r.chars.length) rs

theorem headersFrom_source (offset : Nat) (rs : List Resource) :
    headersFrom "resource".toList offset true 0 (source rs) = headersAt offset rs := by
  induction rs generalizing offset with
  | nil => rfl
  | cons r rs ih => rw [source_cons, r.headersFrom_chars, ih, headersAt]

/-- Written resources are blocks of no other keyword. -/
theorem blocks_source_of_ne (keyword : String) {k : Char} {ks : List Char}
    (hchars : keyword.toList = k :: ks) (h : IsKeyword (k :: ks)) (hk : k ≠ 'r')
    (rs : List Resource) : blocks keyword (source rs) = [] := by
  have hnone (offset : Nat) : headersFrom (k :: ks) offset true 0 (source rs) = [] := by
    induction rs generalizing offset with
    | nil => rfl
    | cons r rs ih => rw [source_cons, r.headersFrom_chars_of_ne h hk, ih]
  rw [blocks, headers, hchars, hnone]
  rfl

/-! ## Blocks -/

/-- The blocks of resources one after the other. -/
def blocksAt (offset : Nat) : List Resource → List Block
  | [] => []
  | r :: rs =>
    ⟨"resource", [String.ofList r.type, String.ofList r.name], r.bodyText, offset⟩ ::
      blocksAt (offset + r.chars.length) rs

/-- What is in front of a text and its first resource. -/
theorem exists_hasLexemes_append (r : Resource) {front : List Char} {ls : List Lexeme}
    (h : HasLexemes front ls) : ∃ ms, HasLexemes (front ++ r.chars) ms := by
  obtain ⟨hs, hhead⟩ := r.exists_lexemes_headLine
  obtain ⟨bs, hbody, -⟩ := r.exists_balanced_bodyText
  have hend := hasLexemes_closeBrace.append (hasLexemes_char (c := '\n') (by decide))
  exact ⟨_, h.append (hhead.append (hbody.append hend))⟩

/-- Each resource is closed by the brace that its body ends at, so the next one is not covered. -/
theorem closedBlocks_source {rs : List Resource} {front : List Char} {ls : List Lexeme}
    (h : HasLexemes front ls) {covered : Nat} (hcovered : covered ≤ front.length) :
    closedBlocks "resource" (front ++ source rs) (bracePairs (front ++ source rs)) covered
      (headersAt front.length rs) = blocksAt front.length rs := by
  induction rs generalizing front ls covered with
  | nil => rfl
  | cons r rs ih =>
    obtain ⟨hs, hhead⟩ := r.exists_lexemes_headLine
    obtain ⟨bs, hbody, hbalanced⟩ := r.exists_balanced_bodyText
    have hfront := h.append hhead
    rw [← List.append_assoc] at hfront
    -- The text is read as what is in front, the body and what is behind its closing brace.
    have htext : front ++ (r.chars ++ source rs) =
        front ++ r.headLine ++ (r.bodyText ++ '}' :: '\n' :: source rs) := by
      simp [Resource.chars]
    have hpos : 0 < r.headLine.length := by
      unfold Resource.headLine
      simp
    have hlast : (r.header front.length).brace = front.length + r.headLine.length - 1 := rfl
    have hbrace : (r.header front.length).brace + 1 = (front ++ r.headLine).length := by
      rw [List.length_append]
      omega
    have hblock := closedBlocks_cons hfront (hbody.fillsBlock hbalanced) htext hbrace
      (show covered ≤ _ by omega) "resource" (headersAt (front ++ r.chars).length rs)
    -- The next resource starts behind that brace, so its header is not inside of the block.
    obtain ⟨ms, hms⟩ := exists_hasLexemes_append r h
    have hcovers : (front ++ r.headLine).length + r.bodyText.length ≤
        (front ++ r.chars).length := by
      simp only [Resource.chars, List.length_append]
      omega
    have hrest := ih hms hcovers
    rw [List.append_assoc] at hrest
    rw [source_cons, headersAt, blocksAt, ← List.length_append, hblock, hrest]
    rfl

/-- The blocks of a written text. -/
theorem blocks_source (rs : List Resource) : blocks "resource" (source rs) = blocksAt 0 rs := by
  rw [blocks, headers, headersFrom_source]
  exact closedBlocks_source HasLexemes.nil (Nat.zero_le _)

/-! ## By type and name -/

/-- The resources of a type, by name. -/
def ofType (rs : List Resource) (type : String) : Entries Value :=
  (rs.filter fun r => String.ofList r.type == type).map fun r =>
    (String.ofList r.name, .map r.entries)

theorem byTypeAndName_eq (rs : List Resource) : byTypeAndName rs =
    (Text.distinct (rs.map fun r => String.ofList r.type)).map fun type =>
      (type, .map (ofType rs type)) :=
  rfl

theorem ofType_concat (rs : List Resource) (r : Resource) (type : String) :
    ofType (rs ++ [r]) type = ofType rs type ++
      if String.ofList r.type == type then [(String.ofList r.name, .map r.entries)] else [] := by
  rw [ofType, List.filter_append, List.map_append]
  congr 1
  by_cases h : (String.ofList r.type == type) = true
  · simp [h]
  · simp [h]

/-- The resources found so far under a type. -/
theorem entries_byTypeAndName (rs : List Resource) (type : String) :
    (((byTypeAndName rs).get? type).getD (.map [])).entries = ofType rs type := by
  rw [byTypeAndName_eq]
  by_cases h : type ∈ Text.distinct (rs.map fun r => String.ofList r.type)
  · rw [Entries.get?_map_of_mem h]
    rfl
  · have hnone : ofType rs type = [] := by
      rw [ofType, List.map_eq_nil_iff, List.filter_eq_nil_iff]
      intro r hr htype
      rw [Text.mem_distinct] at h
      exact h (List.mem_map.mpr ⟨r, hr, beq_iff_eq.mp htype⟩)
    rw [Entries.get?_map_of_not_mem h, hnone]
    rfl

/-- A resource of a new type and name is put where it belongs. -/
theorem insertTyped_byTypeAndName {rs : List Resource} {r : Resource}
    (h : (r.type, r.name) ∉ rs.map fun r => (r.type, r.name)) :
    insertTyped (byTypeAndName rs) (String.ofList r.type) (String.ofList r.name)
      (.map r.entries) = byTypeAndName (rs ++ [r]) := by
  -- Under its type there is no resource of its name yet.
  have hname : String.ofList r.name ∉ (ofType rs (String.ofList r.type)).keys := by
    intro hmem
    rw [Entries.keys, ofType, List.map_map] at hmem
    obtain ⟨s, hs, heq⟩ := List.mem_map.mp hmem
    obtain ⟨hs, htype⟩ := List.mem_filter.mp hs
    have htype := String.ofList_injective (beq_iff_eq.mp htype)
    have hname := String.ofList_injective heq
    exact h (List.mem_map.mpr ⟨s, hs, by rw [htype, hname]⟩)
  have hvalue : (ofType rs (String.ofList r.type)).insert (String.ofList r.name)
      (.map r.entries) = ofType (rs ++ [r]) (String.ofList r.type) := by
    rw [Entries.insert_of_not_mem _ hname, ofType_concat, if_pos (beq_self_eq_true _)]
  -- What stands under other types stays as it is.
  have hother (type : String) (hne : type ≠ String.ofList r.type) :
      Value.map (ofType rs type) = .map (ofType (rs ++ [r]) type) := by
    rw [ofType_concat, if_neg (by simpa using hne.symm), List.append_nil]
  have htypes : Text.distinct ((rs ++ [r]).map fun r => String.ofList r.type) =
      Text.addNew (Text.distinct (rs.map fun r => String.ofList r.type))
        (String.ofList r.type) := by
    rw [Text.distinct, List.map_append, List.foldl_append]
    rfl
  rw [insertTyped, entries_byTypeAndName, hvalue, byTypeAndName_eq, byTypeAndName_eq, htypes,
    Text.addNew]
  split
  · next hmem => exact Entries.insert_map_of_mem (Text.nodup_distinct _) hmem hother
  · next hnew => exact Entries.insert_map_of_not_mem hnew hother

/-- Resources that are put in one after the other. -/
theorem foldl_insertTyped {rs : List Resource} (done : List Resource)
    (h : ((done ++ rs).map fun r => (r.type, r.name)).Nodup) :
    rs.foldl (fun found r => insertTyped found (String.ofList r.type) (String.ofList r.name)
      (.map r.entries)) (byTypeAndName done) = byTypeAndName (done ++ rs) := by
  induction rs generalizing done with
  | nil => rw [List.append_nil, List.foldl_nil]
  | cons r rs ih =>
    have hnew : (r.type, r.name) ∉ done.map fun r => (r.type, r.name) := by
      rw [List.map_append, List.nodup_append] at h
      exact fun hmem => h.2.2 _ hmem _ List.mem_cons_self rfl
    rw [List.append_cons] at h ⊢
    rw [List.foldl_cons, insertTyped_byTypeAndName hnew, ih _ h]

/-- Reading the bodies of the blocks gives the attributes of the resources. -/
theorem foldlM_blocksAt {value : String → Block → Except NumberError Value}
    (hvalue : ∀ (r : Resource) name block, block.body = r.bodyText →
      value name block = .ok (.map r.entries))
    (offset : Nat) (rs : List Resource) (found : Entries Value) :
    (blocksAt offset rs).foldlM (fun found block =>
      match block.labels with
      | type :: name :: _ => do return insertTyped found type name (← value name block)
      | _ => return found) found =
    .ok (rs.foldl (fun found r => insertTyped found (String.ofList r.type)
      (String.ofList r.name) (.map r.entries)) found) := by
  induction rs generalizing offset found with
  | nil => rfl
  | cons r rs ih =>
    rw [blocksAt, List.foldlM_cons, List.foldl_cons, ← ih (offset + r.chars.length)]
    simp only []
    rw [hvalue r _ _ rfl]
    rfl

/-- The resources of a written text, by type and name. -/
theorem byType_source {rs : List Resource} (h : (rs.map fun r => (r.type, r.name)).Nodup) :
    byType (fun _ block => return .map (← Hcl.attributes block.body))
      (blocks "resource" (source rs)) = .ok (byTypeAndName rs) := by
  have hvalue (r : Resource) (name : String) (block : Block) (hbody : block.body = r.bodyText) :
      (do return .map (← Hcl.attributes block.body) : Except NumberError Value) =
        .ok (.map r.entries) := by
    rw [hbody, r.attributes_bodyText]
    rfl
  rw [blocks_source, byType]
  exact (foldlM_blocksAt hvalue 0 rs []).trans
    (congrArg Except.ok (foldl_insertTyped [] h))

/-! ## The tree -/

/-- What is written is read: the text of resources with different types and names gives exactly
the tree that they stand for. -/
theorem configuration_source (rs : List Resource)
    (h : (rs.map fun r => (r.type, r.name)).Nodup) : configuration (source rs) = .ok (tree rs) := by
  have hproviders := blocks_source_of_ne "provider" rfl ⟨by decide, by decide⟩
    (by decide) rs
  have hdata := blocks_source_of_ne "data" rfl ⟨by decide, by decide⟩ (by decide) rs
  have hvariables := blocks_source_of_ne "variable" rfl ⟨by decide, by decide⟩
    (by decide) rs
  have hmodules := blocks_source_of_ne "module" rfl ⟨by decide, by decide⟩
    (by decide) rs
  have htree : filled "resource" (byTypeAndName rs) = tree rs := by
    cases rs with
    | nil => rfl
    | cons r rs =>
      have hne : byTypeAndName (r :: rs) ≠ [] := by
        intro hnil
        rw [byTypeAndName_eq, List.map_eq_nil_iff] at hnil
        have hmem : String.ofList r.type ∈
            Text.distinct ((r :: rs).map fun r => String.ofList r.type) := by simp
        rw [hnil] at hmem
        cases hmem
      rw [filled, if_neg (by simpa using hne), tree, if_neg (by simp)]
  rw [configuration, hproviders, byType_source h, hdata, hvariables, hmodules]
  show Except.ok (filled "provider" [] ++ filled "resource" (byTypeAndName rs) ++
    filled "data" [] ++ filled "variable" [] ++ filled "module" []) = _
  rw [htree]
  simp [filled]

/-- A name of one letter. -/
def letter (c : Char) (h : Text.isIdentStart c = true) : Identifier :=
  ⟨c, [], h, by simp⟩

/-- A resource whose texts hold a comment marker, an equals sign, a bracket and a brace. -/
def markedUp : Resource where
  type := "vm".toList
  name := "web".toList
  attributes := [
    .single (letter 'a' (by decide)) (.text "# x = [\x7b".toList (by decide)),
    .single (letter 'n' (by decide)) (.int (-2) (by decide +kernel)),
    .dependsOn [⟨letter 'a' (by decide), ["b".toList], by decide, by decide⟩],
    .single (letter 'r' (by decide))
      (.reference ⟨letter 'a' (by decide), ["b".toList, "c".toList], by decide, by decide⟩)]
  tags := some [⟨'k', "//".toList, "\x7d".toList, by decide, by decide, by decide⟩]
  isQuotable_type := by decide
  isQuotable_name := by decide
  nodup_names := by decide
  tags_not_mem_names := by decide
  nodup_tags := by decide

theorem configuration_source_markedUp :
    ([markedUp].map fun r => (r.type, r.name)).Nodup ∧
    configuration (source [markedUp]) = .ok [("resource", .map [("vm", .map [("web", .map [
      ("a", .str "# x = [\x7b"), ("n", .int (-2)), ("r", .str "$\x7ba.b.c\x7d"),
      ("depends_on", .list [.str "a.b"]), ("tags", .map [("k//", .str "\x7d")])])])])] :=
  ⟨by decide, configuration_source [markedUp] (by decide)⟩

end Schematic.Hcl
