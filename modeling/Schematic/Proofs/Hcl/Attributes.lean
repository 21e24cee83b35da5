import Schematic.Proofs.Hcl.Body
import Schematic.Proofs.Hcl.Tags
import Schematic.Proofs.Success

/-!
# Reading the body of a written resource

The body of a written resource is taken apart into its lines and its tags, and reading these gives
the attributes that the resource stands for. As no name occurs twice, every attribute that is read
is new and goes to the end of those read before.

## Main statements

- `Resource.split_bodyText` — the parts of a written body
- `Resource.attributes_bodyText` — the attributes of a written body
-/

namespace Schematic.Hcl

open Lexeme
open Text (unlines unlines_cons unlines_append)

namespace Resource

variable (r : Resource)

/-- The text between the braces of a resource. -/
def bodyText : List Char :=
  '\n' :: unlines r.bodyLines

/-- The lines of the attributes, as the body begins. -/
def attributeText : List Char :=
  '\n' :: unlines (r.attributes.map Attribute.line)

/-- The text between the braces of tags. -/
def tagText (tags : List Tag) : List Char :=
  '\n' :: (unlines (tags.map Tag.line) ++ "  ".toList)

theorem isFlat_attributeText : IsFlat r.attributeText := by
  have hlines : IsFlat (unlines (r.attributes.map Attribute.line)) := by
    refine isFlat_unlines fun line hline => ?_
    obtain ⟨a, -, rfl⟩ := List.mem_map.mp hline
    exact a.isFlat_line
  exact (@isFlat_plain ['\n'] (by decide)).append hlines

/-- The text between the braces of tags holds no further braces. -/
theorem isBraceless_tagText (tags : List Tag) : IsBraceless (tagText tags) := by
  have hplain {cs : List Char} (h : ∀ c ∈ cs, isPlain c = true) : IsBraceless cs :=
    (isFlat_plain h).isBraceless
  have hlines : IsBraceless (unlines (tags.map Tag.line)) := by
    induction tags with
    | nil => exact @hplain [] (by simp)
    | cons tag tags ih => exact tag.isBraceless_line.append ih
  exact (@hplain ['\n'] (by decide)).append (hlines.append (hplain (by decide)))

/-! ## Taking the body apart -/

theorem bodyText_of_none (h : r.tags = none) : r.bodyText = r.attributeText := by
  rw [bodyText, attributeText, bodyLines, tagLines, h, List.append_nil]

theorem bodyText_of_some {tags : List Tag} (h : r.tags = some tags) : r.bodyText =
    (r.attributeText ++ "  tags = ".toList) ++ '{' :: (tagText tags ++ ['}', '\n']) := by
  have hopen : "  tags = \x7b".toList = "  tags = ".toList ++ ['{'] := by decide
  have hclose : "  \x7d".toList = "  ".toList ++ ['}'] := by decide
  rw [bodyText, attributeText, bodyLines, tagLines, h, unlines_append, tagText, hopen, hclose,
    unlines_cons, unlines_append, unlines_cons]
  simp only [List.append_assoc, List.cons_append, List.nil_append]
  rfl

/-- A body of lines ends with a line feed. -/
theorem exists_attributeText_eq_append : ∃ front, r.attributeText = front ++ ['\n'] := by
  rw [attributeText]
  rcases List.eq_nil_or_concat (r.attributes.map Attribute.line) with h | ⟨lines, line, h⟩
  · exact ⟨[], by rw [h]; rfl⟩
  · refine ⟨'\n' :: (unlines lines ++ line), ?_⟩
    rw [h, List.concat_eq_append, unlines_append, unlines_cons]
    simp [unlines]

/-- The tags stand behind their name. -/
theorem nameOnLine_tags :
    nameOnLine ((r.attributeText ++ "  tags = ".toList).reverse ++ []) = "tags".toList := by
  obtain ⟨front, hfront⟩ := r.exists_attributeText_eq_append
  have hreverse : (r.attributeText ++ "  tags = ".toList).reverse ++ [] =
      "  tags = ".toList.reverse ++ '\n' :: front.reverse := by
    rw [hfront]
    simp
  rw [hreverse, nameOnLine_append (by decide)]
  decide

/-- The parts of a body without tags. -/
theorem split_bodyText_of_none (h : r.tags = none) : split r.bodyText = ⟨r.attributeText, []⟩ := by
  rw [r.bodyText_of_none h]
  exact split_of_isFlat r.isFlat_attributeText

/-- The parts of a body with tags: these are drawn together on their line. -/
theorem split_bodyText_of_some {tags : List Tag} (h : r.tags = some tags) :
    split r.bodyText = ⟨r.attributeText ++ "  tags = \x7b\x7d\n".toList,
      [⟨"tags".toList, tagText tags⟩]⟩ := by
  obtain ⟨ls, hls, hflat⟩ : IsFlat (r.attributeText ++ "  tags = ".toList) :=
    r.isFlat_attributeText.append (isFlat_plain (by decide))
  obtain ⟨ms, hms, hbrace⟩ := isBraceless_tagText tags
  have hlexemes : ofText r.bodyText =
      ls ++ openBrace :: (ms ++ closeBrace :: [other '\n']) := by
    have hfeed := hasLexemes_char (c := '\n') (by decide)
    have hblock := hasLexemes_openBrace.append
      (hms.append (hasLexemes_closeBrace.append hfeed))
    rw [r.bodyText_of_some h]
    exact (hls.append hblock).ofText_eq
  have hcut := (Balanced.of_forall hbrace).cutBlock?_closeBrace [other '\n']
  rw [split, hlexemes, splitLexemes_flat hflat, splitLexemes_block hcut, hls.flatMap_text,
    hms.flatMap_text, nameOnLine_tags, splitLexemes_cons rfl, splitLexemes]
  rw [List.append_assoc]
  rfl

/-! ## Single values -/

theorem insertScalars_cons_some {key raw : List Char} {value : Value}
    (h : scalar raw = .ok (some value)) (entries : Entries Value)
    (rest : List (List Char × List Char)) : insertScalars entries ((key, raw) :: rest) =
      insertScalars (entries.insert (String.ofList key) value) rest := by
  rw [insertScalars, List.foldlM_cons]
  simp only [h]
  rfl

theorem insertScalars_cons_none {key raw : List Char} (h : scalar raw = .ok none)
    (entries : Entries Value) (rest : List (List Char × List Char)) :
    insertScalars entries ((key, raw) :: rest) = insertScalars entries rest := by
  rw [insertScalars, List.foldlM_cons]
  simp only [h]
  rfl

/-- The first of entries with different keys is new. -/
theorem entry_not_mem_keys {a : Attribute} {as : List Attribute} {entries : Entries Value}
    (h : (entries ++ (a :: as).map Attribute.entry).keys.Nodup) :
    String.ofList a.name ∉ entries.keys := by
  rw [Entries.keys, List.map_append, List.nodup_append] at h
  exact fun hmem => h.2.2 _ hmem _ List.mem_cons_self rfl

/-- Values under different new names go to the end, and lists are passed over. What follows does
not matter as long as it has no value. -/
theorem insertScalars_attributes {as : List Attribute} (entries : Entries Value)
    (h : (entries ++ as.map Attribute.entry).keys.Nodup) (rest : List (List Char × List Char)) :
    insertScalars entries (as.map (fun a => (a.name, a.chars)) ++ rest) =
      insertScalars (entries ++ (as.filter Attribute.isSingle).map Attribute.entry) rest := by
  induction as generalizing entries with
  | nil => simp
  | cons a as ih =>
    have hscalar := a.scalar_chars
    rw [List.map_cons, List.cons_append]
    cases hsingle : a.isSingle with
    -- A single value is new under its name, so it goes to the end.
    | true =>
      have hinsert : entries.insert (String.ofList a.name) a.value = entries ++ [a.entry] :=
        Entries.insert_of_not_mem a.value (entry_not_mem_keys h)
      rw [List.map_cons, List.append_cons] at h
      rw [hsingle, if_pos rfl] at hscalar
      have hrest := ih _ h
      rw [← List.append_cons] at hrest
      rw [insertScalars_cons_some hscalar, hinsert, List.filter_cons_of_pos hsingle, List.map_cons]
      exact hrest
    -- A list has no value of its own here; it is read in the next pass.
    | false =>
      have hrest : (entries ++ as.map Attribute.entry).keys.Nodup :=
        h.sublist (((List.sublist_cons_self _ _).append_left entries).map Prod.fst)
      rw [hsingle, if_neg (by decide)] at hscalar
      rw [insertScalars_cons_none hscalar, List.filter_cons_of_neg (by simp [hsingle])]
      exact ih _ hrest

/-! ## Lists -/

/-- The lists among the attributes, by name and with what stands between the brackets. -/
def writtenLists : List Attribute → List (List Char × List Char)
  | [] => []
  | .single _ _ :: as => writtenLists as
  | .dependsOn addresses :: as =>
    ("depends_on".toList, addressList addresses) :: writtenLists as

theorem listsFrom_attributes (as : List Attribute) (rest : List Char) :
    listsFrom true 0 (unlines (as.map Attribute.line) ++ rest) =
      writtenLists as ++ listsFrom true 0 rest := by
  induction as with
  | nil => rfl
  | cons a as ih =>
    rw [List.map_cons, unlines_cons, List.append_assoc, List.cons_append]
    cases a with
    | single name expr =>
      rw [listsFrom_line (Attribute.feed_not_mem_line _) (Attribute.listStart?_single _ _ _), ih]
      rfl
    | dependsOn addresses =>
      rw [listsFrom_list (by simp [Attribute.line]) (Attribute.feed_not_mem_line _)
        (bracket_not_mem_addressList addresses) (Attribute.listStart?_dependsOn _ _), ih]
      rfl

theorem insertLists_cons {key content : List Char} {items : List Value}
    (h : listItems (key == dependsOn) content = .ok items) (entries : Entries Value)
    (rest : List (List Char × List Char)) : insertLists entries ((key, content) :: rest) =
      insertLists (entries.insert (String.ofList key) (.list items)) rest := by
  rw [insertLists, List.foldlM_cons]
  simp only [h]
  rfl

/-- Lists under different new names go to the end. -/
theorem insertLists_attributes {as : List Attribute} {entries : Entries Value}
    (h : (entries ++ (as.filter fun a => !a.isSingle).map Attribute.entry).keys.Nodup) :
    insertLists entries (writtenLists as) =
      .ok (entries ++ (as.filter fun a => !a.isSingle).map Attribute.entry) := by
  induction as generalizing entries with
  | nil =>
    simp only [List.filter_nil, List.map_nil, List.append_nil]
    rfl
  | cons a as ih =>
    cases a with
    | single name expr => exact ih h
    | dependsOn addresses =>
      rw [List.filter_cons_of_pos rfl] at h ⊢
      have hinsert : entries.insert (String.ofList "depends_on".toList)
          (Attribute.dependsOn addresses).value =
            entries ++ [(Attribute.dependsOn addresses).entry] :=
        Entries.insert_of_not_mem _ (entry_not_mem_keys h)
      rw [List.map_cons, List.append_cons] at h ⊢
      have hitems : listItems ("depends_on".toList == dependsOn) (addressList addresses) =
          .ok (addresses.map fun address => .str (String.ofList address.chars)) :=
        listItems_addressList addresses
      rw [writtenLists, insertLists_cons hitems]
      exact (congrArg (insertLists · (writtenLists as)) hinsert).trans (ih h)

/-! ## Tags -/

/-- Names that are different are different keys. -/
theorem nodup_map_ofList {names : List (List Char)} (h : names.Nodup) :
    (names.map String.ofList).Nodup :=
  List.Pairwise.map String.ofList (fun _ _ hne heq => hne (String.ofList_injective heq)) h

/-- The tags between braces, as a mapping. -/
theorem tags_tagText {ts : List Tag} (h : (ts.map Tag.name).Nodup) :
    Hcl.tags (tagText ts) = .map (ts.map Tag.entry) := by
  have hfound : tagsFrom true 0 (tagText ts) = ts.map fun tag => (tag.name, tag.text) := by
    -- The line feed in front lets the first tag begin.
    rw [tagText, tagsFrom_cons (by decide) (by decide)]
    show tagsFrom true 0 _ = _
    rw [tagsFrom_unlines]
    exact List.append_nil _
  have hkeys : (Entries.keys (ts.map Tag.entry)).Nodup := by
    have hmap : Entries.keys (ts.map Tag.entry) = (ts.map Tag.name).map String.ofList := by
      simp [Entries.keys, Tag.entry, Function.comp_def]
    rw [hmap]
    exact nodup_map_ofList h
  rw [Hcl.tags, hfound, List.map_map]
  exact congrArg Value.map (Entries.ofList_eq_self hkeys)

/-! ## All attributes -/

/-- The attributes of a resource have different keys. -/
theorem nodup_keys : (Entries.keys (r.attributes.map Attribute.entry)).Nodup := by
  have hmap : Entries.keys (r.attributes.map Attribute.entry) =
      (r.attributes.map Attribute.name).map String.ofList := by
    simp [Entries.keys, Attribute.entry, Function.comp_def]
  rw [hmap]
  exact nodup_map_ofList r.nodup_names

/-- They still do when the lists are put behind the single values. -/
theorem nodup_keys_sorted : (Entries.keys ((r.attributes.filter Attribute.isSingle).map
    Attribute.entry ++ (r.attributes.filter fun a => !a.isSingle).map Attribute.entry)).Nodup := by
  -- Sorting by kind only changes the order.
  have hperm := (List.filter_append_perm Attribute.isSingle r.attributes).map Attribute.entry
  rw [List.map_append] at hperm
  exact (hperm.map Prod.fst).nodup_iff.mpr r.nodup_keys

/-- The name of the tags is none of them. -/
theorem tags_not_mem_keys : "tags" ∉ Entries.keys ((r.attributes.filter Attribute.isSingle).map
    Attribute.entry ++ (r.attributes.filter fun a => !a.isSingle).map Attribute.entry) := by
  intro h
  have hperm := (List.filter_append_perm Attribute.isSingle r.attributes).map Attribute.entry
  rw [List.map_append] at hperm
  have hmem := (hperm.map Prod.fst).mem_iff.mp h
  rw [List.map_map] at hmem
  obtain ⟨a, ha, heq⟩ := List.mem_map.mp hmem
  have hname : a.name = "tags".toList := by
    rw [← String.toList_ofList (l := a.name)]
    exact congrArg String.toList heq
  exact r.tags_not_mem_names (hname ▸ List.mem_map_of_mem ha)

/-- The lines of a body and those that follow. -/
theorem lines_attributeText (rest : List Char) :
    Text.lines (r.attributeText ++ rest) =
      [] :: (r.attributes.map Attribute.line ++ Text.lines rest) := by
  have hlines : ∀ line ∈ r.attributes.map Attribute.line, ∀ c ∈ line,
      Text.isLineBreak c = false := by
    intro line hline
    obtain ⟨a, -, rfl⟩ := List.mem_map.mp hline
    exact a.isLineBreak_line
  rw [attributeText, List.cons_append, Text.lines_feed, Text.lines_unlines hlines]

/-- The assignments of a body and those that follow. -/
theorem assignments_attributeText (rest : List Char) :
    (Text.lines (r.attributeText ++ rest)).filterMap assignment? =
      r.attributes.map (fun a => (a.name, a.chars)) ++ (Text.lines rest).filterMap assignment? := by
  have hsome : assignment? ∘ Attribute.line = fun a => some (a.name, a.chars) :=
    funext Attribute.assignment?_line
  have hnone : assignment? [] = none := rfl
  rw [lines_attributeText, List.filterMap_cons_none hnone, List.filterMap_append,
    List.filterMap_map, hsome]
  simp

/-- The lists of a body and those that follow. -/
theorem listsFrom_attributeText (rest : List Char) :
    listsFrom true 0 (r.attributeText ++ rest) =
      writtenLists r.attributes ++ listsFrom true 0 rest := by
  rw [attributeText, List.cons_append, listsFrom_feed, listsFrom_attributes]

/-- The values and lists of a body are read one after the other. -/
theorem insertLists_insertScalars {rest : List Char}
    (hvalues : ∀ entries, insertScalars entries ((Text.lines rest).filterMap assignment?) =
      .ok entries)
    (hlists : listsFrom true 0 rest = []) :
    (do
      let scalars ←
        insertScalars [] ((Text.lines (r.attributeText ++ rest)).filterMap assignment?)
      insertLists scalars (listsFrom true 0 (r.attributeText ++ rest))) =
      .ok ((r.attributes.filter Attribute.isSingle).map Attribute.entry ++
        (r.attributes.filter fun a => !a.isSingle).map Attribute.entry) := by
  rw [assignments_attributeText, listsFrom_attributeText, hlists, List.append_nil,
    insertScalars_attributes [] r.nodup_keys, hvalues]
  exact insertLists_attributes r.nodup_keys_sorted

/-- The attributes that are read from a written body are those of the resource. -/
theorem attributes_bodyText : Hcl.attributes r.bodyText = .ok r.entries := by
  cases htags : r.tags with
  | none =>
    have hread := @insertLists_insertScalars r [] (fun _ => rfl) rfl
    obtain ⟨scalars, hscalars, hlists⟩ := exists_of_bind_eq_ok hread
    rw [List.append_nil] at hscalars hlists
    rw [Hcl.attributes, r.split_bodyText_of_none htags]
    simp only [hscalars, entries, htags, List.append_nil]
    show (insertLists scalars _ >>= fun lists => _) = _
    rw [hlists]
    rfl
  | some ts =>
    -- The block of the tags has left its two braces on their line, and these have no value.
    have hread := @insertLists_insertScalars r "  tags = \x7b\x7d\n".toList
      (fun _ => rfl) rfl
    obtain ⟨scalars, hscalars, hlists⟩ := exists_of_bind_eq_ok hread
    rw [Hcl.attributes, r.split_bodyText_of_some htags]
    simp only [hscalars, entries, htags]
    show (insertLists scalars _ >>= fun lists => _) = _
    rw [hlists]
    have hinsert := Entries.insert_of_not_mem (Hcl.tags (tagText ts)) r.tags_not_mem_keys
    rw [tags_tagText (r.nodup_tags ts htags)] at hinsert
    refine congrArg Except.ok ?_
    rw [insertTags, List.foldl_cons, if_pos rfl, tags_tagText (r.nodup_tags ts htags)]
    exact hinsert

end Resource

end Schematic.Hcl
