import Schematic.Proofs.Hcl.Attributes
import Schematic.Proofs.Hcl.Padded
import Schematic.Proofs.Hcl.Plain

/-!
# Lists of quoted texts

A list goes to the first closing bracket and its items are the pieces between commas, whether these
stand in quotes or not. So no text of any list holds a comma or a closing bracket, and a list of
texts in quotes is read as these texts exactly if none of them does. Braces, comment marks and
opening brackets in the texts do no harm.

## Main definitions

- `WritesItems` — texts in quotes with commas between them, on one line or on several
- `ListText` — a list that is assigned to a name

## Main statements

- `isSeparated_of_mem_attributes` — what no list of any body holds
- `ListText.isReadBack_iff` — the lists that are read as they are written
-/

namespace Schematic.Hcl

open Lexeme

/-! ## Texts that are read from lists -/

/-- What stands in quotes is all in front of the closing one. -/
theorem eq_append_of_unquoteRest {cs text : List Char} (h : unquoteRest cs = some text) :
    cs = text ++ ['"'] := by
  fun_induction unquoteRest cs generalizing text with
  | case1 => exact Option.some.inj h ▸ rfl
  | case2 => cases h
  | case3 => cases h
  | case4 c rest _ ih =>
    obtain ⟨more, hmore, rfl⟩ := Option.map_eq_some_iff.mp h
    rw [ih hmore]
    rfl
  | case5 => cases h
  | case6 c rest _ _ _ _ ih =>
    obtain ⟨more, hmore, rfl⟩ := Option.map_eq_some_iff.mp h
    rw [ih hmore]
    rfl
  | case7 => cases h

/-- The characters of a text that an expression stands for are those of the expression, and those of
an interpolation. -/
theorem mem_of_scalar_eq_str {raw : List Char} {text : String}
    (h : scalar raw = .ok (some (.str text))) {c : Char} (hc : c ∈ text.toList) :
    c ∈ raw ∨ c ∈ ['$', '{', '}'] := by
  obtain ⟨cs, hquoted, heq⟩ | ⟨b, heq⟩ | ⟨x, heq⟩ | ⟨n, heq⟩ | heq := cases_of_scalar h
  · rw [Value.str.inj heq, String.toList_ofList] at hc
    unfold unquote? at hquoted
    split at hquoted
    · rw [eq_append_of_unquoteRest hquoted]
      exact .inl (by simp [hc])
    · cases hquoted
  · cases heq
  · cases heq
  · cases heq
  · rw [Value.str.inj heq, interpolated, String.toList_ofList] at hc
    simp only [List.mem_append, List.mem_cons, List.not_mem_nil, or_false] at hc ⊢
    tauto

theorem mem_of_listItem_eq_str {addresses : Bool} {raw : List Char} {text : String}
    (h : listItem addresses raw = .ok (some (.str text))) {c : Char} (hc : c ∈ text.toList) :
    c ∈ raw ∨ c ∈ ['$', '{', '}'] := by
  unfold listItem at h
  split_ifs at h
  · cases h
  · obtain rfl := Value.str.inj (Option.some.inj (Except.ok.inj h))
    rw [String.toList_ofList] at hc
    exact .inl hc
  · exact mem_of_scalar_eq_str h hc

/-- A list ends at the first bracket. -/
theorem bracket_not_mem_of_mem_listsFrom {atLineStart : Bool} {skipped : Nat} {cs : List Char}
    {list : List Char × List Char} (h : list ∈ listsFrom atLineStart skipped cs) :
    ']' ∉ list.2 := by
  fun_induction listsFrom atLineStart skipped cs with
  | case1 => cases h
  | case2 _ _ _ _ ih => exact ih h
  | case3 _ _ _ _ ih => exact ih h
  | case4 => cases h
  | case5 _ _ _ _ _ _ _ _ hcut ih =>
    rcases List.mem_cons.mp h with rfl | h
    · exact (Text.append_of_cutAtChar? hcut).2
    · exact ih h

/-- None of the texts of a list holds a comma or a closing bracket. -/
def IsSeparated (value : Value) : Prop :=
  ∀ text, .str text ∈ value.listed → ',' ∉ text.toList ∧ ']' ∉ text.toList

theorem isSeparated_listItems {addresses : Bool} {raw : List Char} {items : List Value}
    (hraw : ']' ∉ raw) (h : listItems addresses raw = .ok items) : IsSeparated (.list items) := by
  obtain ⟨found, hfound, h⟩ := exists_of_bind_eq_ok h
  obtain rfl := Except.ok.inj h
  intro text htext
  obtain ⟨item, hitem, rfl⟩ := List.mem_filterMap.mp htext
  obtain ⟨piece, hpiece, hread⟩ := exists_mem_of_mapM_eq_ok hfound _ hitem
  have hchars {c : Char} (hc : c ∈ text.toList) : c ∈ piece ∨ c ∈ ['$', '{', '}'] :=
    (mem_of_listItem_eq_str hread hc).imp_left ((Text.infix_trim piece).subset ·)
  -- A comma would have ended the piece, and a bracket the list.
  constructor
  · intro hc
    rcases hchars hc with hc | hc
    · exact Text.sep_not_mem_of_mem_splitAtChar hpiece hc
    · exact absurd hc (by decide)
  · intro hc
    rcases hchars hc with hc | hc
    · exact hraw (Text.mem_of_mem_splitAtChar hpiece hc)
    · exact absurd hc (by decide)

/-- No text of a list among the attributes of a body holds a comma or a closing bracket. -/
theorem isSeparated_of_mem_attributes {body : List Char} {result : Entries Value}
    (h : attributes body = .ok result) : ∀ e ∈ result, IsSeparated e.2 := by
  refine forall_mem_attributes (fun raw value hvalue text htext => ?_) (fun list hlist items => ?_)
    (fun inner text htext => ?_) h
  · obtain ⟨_, -, rfl⟩ | ⟨_, rfl⟩ | ⟨_, rfl⟩ | ⟨_, rfl⟩ | rfl := cases_of_scalar hvalue <;>
      cases htext
  · exact isSeparated_listItems (bracket_not_mem_of_mem_listsFrom hlist)
  · cases htext

/-! ## Written lists -/

/-- A text in brackets, and the items that stand in it in quotes. There are commas between them, and
perhaps one behind the last, and blanks and line ends around them. `isFree` says whether an item may
stand in front. -/
inductive WritesItems : (isFree : Bool) → List Char → List (List Char) → Prop where
  | nil (isFree : Bool) : WritesItems isFree [] []
  | blank {isFree : Bool} {c : Char} {cs : List Char} {items : List (List Char)}
      (hc : Text.isBlank c = true) (h : WritesItems isFree cs items) :
      WritesItems isFree (c :: cs) items
  | item {s cs : List Char} {items : List (List Char)} (hs : IsLineText s)
      (h : WritesItems false cs items) : WritesItems true (inQuotes s ++ cs) (s :: items)
  | comma {cs : List Char} {items : List (List Char)} (h : WritesItems true cs items) :
      WritesItems false (',' :: cs) items

/-! ### The items between commas -/

section Items

variable {addresses : Bool} {piece : List Char} {first : Option Value}

theorem listItem_inQuotes {s : List Char} (h : IsLineText s) (addresses : Bool) :
    listItem addresses (inQuotes s) = .ok (some (.str (String.ofList s))) := by
  have hreference : isReference (inQuotes s) = false := rfl
  have hne : (inQuotes s).isEmpty = false := rfl
  rw [listItem, hne, hreference, Bool.and_false, if_neg (by decide), if_neg (by decide), scalar,
    unquote?_inQuotes h]

theorem listItems_of_not_mem (hpiece : ',' ∉ piece)
    (h : listItem addresses (Text.trim piece) = .ok first) :
    listItems addresses piece = .ok first.toList := by
  rw [listItems, Text.splitAtChar_of_not_mem hpiece, List.mapM_cons, List.mapM_nil, h]
  cases first <;> rfl

theorem listItems_append_comma {rest : List Char} {items : List Value} (hpiece : ',' ∉ piece)
    (h : listItem addresses (Text.trim piece) = .ok first)
    (hrest : listItems addresses rest = .ok items) :
    listItems addresses (piece ++ ',' :: rest) = .ok (first.toList ++ items) := by
  obtain ⟨found, hfound, hitems⟩ := exists_of_bind_eq_ok hrest
  rw [← Except.ok.inj hitems, listItems, Text.splitAtChar_append hpiece, List.mapM_cons, h]
  simp only [hfound]
  cases first <;> rfl

end Items

/-! ### The lines of a list -/

/-- A line that assigns no value, whatever follows on it. -/
def IsValueless (line : List Char) : Prop :=
  ∀ more, ∀ found ∈ assignment? (line ++ more), scalar found.2 = .ok none

theorem IsValueless.append {line : List Char} (h : IsValueless line) (more : List Char) :
    IsValueless (line ++ more) := by
  intro rest
  rw [List.append_assoc]
  exact h (more ++ rest)

theorem insertScalars_of_forall_none {assigned : List (List Char × List Char)}
    (h : ∀ found ∈ assigned, scalar found.2 = .ok none) (entries : Entries Value) :
    insertScalars entries assigned = .ok entries := by
  induction assigned with
  | nil => rfl
  | cons found assigned ih =>
    rw [List.forall_mem_cons] at h
    rw [Resource.insertScalars_cons_none h.1, ih h.2]

/-- A line of blanks, or one that assigns no value. -/
def IsIdle (line : List Char) : Prop :=
  Text.trimLeft line = [] ∨ IsValueless line

namespace IsIdle

variable {line : List Char}

theorem scalar_assignment? (h : IsIdle line) :
    ∀ found ∈ assignment? line, scalar found.2 = .ok none := by
  rcases h with hblank | hvalueless
  · rw [assignment?, hblank]
    exact fun found hfound => by cases hfound
  · simpa using hvalueless []

theorem append_blank (h : IsIdle line) {c : Char} (hc : Text.isBlank c = true) :
    IsIdle (line ++ [c]) := by
  refine h.imp (fun hblank => ?_) (·.append [c])
  have hall := List.forall_mem_append.mpr
    ⟨isBlank_of_trimLeft_eq_nil hblank, List.forall_mem_singleton.mpr hc⟩
  exact trimLeft_eq_nil_of_blank hall

/-- A character that begins no identifier begins no assignment. -/
theorem append_cons (h : IsIdle line) {c : Char} (hblank : Text.isBlank c = false)
    (hstart : Text.isIdentStart c = false) (more : List Char) :
    IsValueless (line ++ c :: more) := by
  rcases h with hline | hvalueless
  · intro rest
    have htrim : Text.trimLeft (line ++ (c :: more ++ rest)) = c :: (more ++ rest) := by
      rw [Text.trimLeft, List.dropWhile_append_of_pos (isBlank_of_trimLeft_eq_nil hline)]
      exact List.dropWhile_cons_of_neg (by simp [hblank])
    rw [List.append_assoc, assignment?, htrim, identifier?, if_neg (by simp [hstart])]
    exact fun found hfound => by cases hfound
  · exact hvalueless.append _

end IsIdle

/-! ### Reading written items -/

namespace WritesItems

variable {isFree : Bool} {cs : List Char} {items : List (List Char)}

theorem isFlat (h : WritesItems isFree cs items) : IsFlat cs := by
  induction h with
  | nil => exact isFlat_plain (by simp)
  | blank hc _ ih =>
    exact (isFlat_plain (List.forall_mem_singleton.mpr (isPlain_of_class hc (by decide)))).append ih
  | item hs _ ih => exact (isFlat_inQuotes (isQuotable_of_isLineText hs)).append ih
  | comma _ ih => exact (@isFlat_plain [','] (by decide)).append ih

theorem bracket_not_mem (h : WritesItems isFree cs items) (hitems : ∀ s ∈ items, ']' ∉ s) :
    ']' ∉ cs := by
  induction h with
  | nil => exact List.not_mem_nil
  | @blank _ c _ _ hc _ ih =>
    have hne : ']' ≠ c := (Text.ne_of_class hc (by decide)).symm
    simp [hne, ih hitems]
  | item _ _ ih =>
    rw [List.forall_mem_cons] at hitems
    simp [inQuotes, hitems.1, ih hitems.2]
  | comma _ ih => simp [ih hitems]

/-- On none of its lines a value is assigned: what does not go on with the first line begins with a
quote, a comma or the bracket. -/
theorem scalar_assigned (h : WritesItems isFree cs items) {line : List Char}
    (hline : ∀ c ∈ line, Text.isLineBreak c = false) (hidle : IsIdle line) :
    ∀ found ∈ assigned (line ++ (cs ++ [']'])), scalar found.2 = .ok none := by
  induction h generalizing line with
  | nil =>
    have hlonger : ∀ c ∈ line ++ [']'], Text.isLineBreak c = false :=
      List.forall_mem_append.mpr ⟨hline, by decide⟩
    have hvalueless := hidle.append_cons (c := ']') (by decide) (by decide) []
    rw [List.nil_append, assigned_line hlonger]
    exact fun found hfound => hvalueless [] found (by simpa using hfound)
  | @blank isFree c cs items hc _ ih =>
    -- A line end begins a new line; another blank goes on with this one.
    cases hbreak : Text.isLineBreak c with
    | true =>
      rw [List.cons_append, assigned_append hline hbreak]
      refine List.forall_mem_append.mpr ⟨fun found hfound => ?_, ?_⟩
      · exact hidle.scalar_assignment? found (Option.mem_toList.mp hfound)
      · exact @ih [] (by simp) (.inl rfl)
    | false =>
      rw [List.cons_append, List.append_cons]
      refine ih ?_ (hidle.append_blank hc)
      exact List.forall_mem_append.mpr ⟨hline, List.forall_mem_singleton.mpr hbreak⟩
  | @item s cs items hs _ ih =>
    rw [List.append_assoc, ← List.append_assoc]
    refine ih (List.forall_mem_append.mpr ⟨hline, ?_⟩) (.inr ?_)
    · exact isLineBreak_inQuotes hs
    · exact hidle.append_cons (by decide) (by decide) _
  | comma _ ih =>
    rw [List.cons_append, List.append_cons]
    refine ih (List.forall_mem_append.mpr ⟨hline, by decide⟩) (.inr ?_)
    exact hidle.append_cons (by decide) (by decide) []

/-- The items of a written list are read one after the other, behind a piece that is trimmed. -/
theorem listItems_append (h : WritesItems isFree cs items) (hitems : ∀ s ∈ items, ',' ∉ s)
    (addresses : Bool) {piece : List Char} {first : Option Value} (hpiece : ',' ∉ piece)
    (hfirst : listItem addresses (Text.trim piece) = .ok first)
    (hfree : isFree = true → ∀ c ∈ piece, Text.isBlank c = true) :
    listItems addresses (piece ++ cs) =
      .ok (first.toList ++ items.map fun s => .str (String.ofList s)) := by
  induction h generalizing piece first with
  | nil =>
    rw [List.append_nil, listItems_of_not_mem hpiece hfirst]
    simp
  | @blank isFree c cs items hc _ ih =>
    have hcomma : ',' ≠ c := (Text.ne_of_class hc (by decide)).symm
    have hblank : ∀ d ∈ [c], Text.isBlank d = true := List.forall_mem_singleton.mpr hc
    rw [List.append_cons]
    refine ih hitems (by simp [hpiece, hcomma]) ?_ fun hf => ?_
    · rw [trim_append_of_blank hblank, hfirst]
    · exact List.forall_mem_append.mpr ⟨hfree hf, hblank⟩
  | @item s cs items hs _ ih =>
    rw [List.forall_mem_cons] at hitems
    -- Where an item may stand the piece so far is blank, so it is trimmed to the item.
    have hblank := hfree rfl
    have hnone : first = none := by
      rw [trim_eq_nil_of_blank hblank] at hfirst
      exact (Except.ok.inj hfirst).symm
    have hquoted : listItem addresses (Text.trim (piece ++ inQuotes s)) =
        .ok (some (.str (String.ofList s))) := by
      rw [trim_blank_append hblank, trim_inQuotes, listItem_inQuotes hs]
    have hcomma : ',' ∉ piece ++ inQuotes s := by simp [inQuotes, hpiece, hitems.1]
    rw [← List.append_assoc, ih hitems.2 hcomma hquoted (by simp), hnone]
    rfl
  | comma _ ih =>
    have hrest := @ih hitems [] none (by simp) rfl (by simp)
    rw [List.nil_append] at hrest
    rw [listItems_append_comma hpiece hfirst hrest]
    rfl

end WritesItems

/-! ### Layouts -/

section Layouts

variable {items : List (List Char)}

/-- Items on one line, with a comma and a blank between them. -/
def onOneLine (items : List (List Char)) : List Char :=
  ", ".toList.intercalate (items.map inQuotes)

theorem writesItems_onOneLine (h : ∀ s ∈ items, IsLineText s) :
    WritesItems true (onOneLine items) items := by
  unfold onOneLine
  induction items with
  | nil => exact .nil true
  | cons s items ih =>
    rw [List.forall_mem_cons] at h
    cases items with
    | nil => simpa using WritesItems.item h.1 (.nil false)
    | cons t items =>
      rw [List.map_cons, List.map_cons, List.intercalate_cons_cons, ← List.map_cons,
        List.append_assoc]
      exact .item h.1 (.comma (.blank (by decide) (ih h.2)))

/-- Each item on a line of its own, with a comma behind it. -/
def onLines (items : List (List Char)) : List Char :=
  '\n' :: (Text.unlines (items.map fun s => "    ".toList ++ (inQuotes s ++ [','])) ++
    "  ".toList)

theorem writesItems_onLines (h : ∀ s ∈ items, IsLineText s) :
    WritesItems true (onLines items) items := by
  unfold onLines
  refine .blank (by decide) ?_
  induction items with
  | nil => exact .blank (by decide) (.blank (by decide) (.nil true))
  | cons s items ih =>
    rw [List.forall_mem_cons] at h
    have hblanks {cs : List Char} (hcs : WritesItems true cs (s :: items)) :
        WritesItems true ("    ".toList ++ cs) (s :: items) :=
      .blank (by decide) (.blank (by decide) (.blank (by decide) (.blank (by decide) hcs)))
    rw [List.map_cons, Text.unlines_cons, List.append_assoc, List.append_assoc, List.append_assoc]
    exact hblanks (.item h.1 (.comma (.blank (by decide) (ih h.2))))

end Layouts

/-! ## Lists under a name -/

/-- A list that is assigned to a name. -/
structure ListText where
  name : Identifier
  inner : List Char
  items : List (List Char)
  writes : WritesItems true inner items

namespace ListText

variable (l : ListText)

/-- The assignment of the list, indented as in a block. -/
def chars : List Char :=
  ' ' :: ' ' :: (l.name.chars ++ ' ' :: '=' :: ' ' :: '[' :: (l.inner ++ [']']))

/-- The key of the list among the attributes. -/
def key : String :=
  String.ofList l.name.chars

/-- What it is to be read as. -/
def value : Value :=
  .list (l.items.map fun s => .str (String.ofList s))

/-- Up to its bracket. -/
def head : List Char :=
  ' ' :: ' ' :: (l.name.chars ++ [' ', '=', ' ', '['])

theorem chars_eq : l.chars = l.head ++ (l.inner ++ [']']) := by
  simp [chars, head]

theorem mem_head {c : Char} (hc : c ∈ l.head) :
    Text.isIdentRest c = true ∨ c ∈ [' ', '=', '['] := by
  simp only [head, List.mem_cons, List.mem_append, List.not_mem_nil, or_false] at hc ⊢
  rcases hc with hc | hc | hc | hc
  · exact .inr (.inl hc)
  · exact .inr (.inl hc)
  · exact .inl (l.name.isIdentRest_chars c hc)
  · tauto

theorem isFlat_chars : IsFlat l.chars := by
  have hhead : IsFlat l.head := by
    refine isFlat_plain fun c hc => ?_
    rcases l.mem_head hc with hc | hc
    · exact isPlain_of_isReferenceRest (isReferenceRest_of_isIdentRest hc)
    · exact (by decide : ∀ c ∈ [' ', '=', '['], isPlain c = true) c hc
  rw [chars_eq]
  exact hhead.append (l.writes.isFlat.append (isFlat_plain (by decide)))

/-- The first line assigns a list, and that is no single value. -/
theorem isValueless_head : IsValueless l.head := by
  intro more found hfound
  have hline : l.head ++ more =
      ' ' :: ' ' :: (l.name.first :: l.name.rest ++ ' ' :: '=' :: ' ' :: '[' :: more) := by
    simp [head, Identifier.chars]
  rw [hline, assignment?_append l.name.isIdentStart_first l.name.isIdentRest_rest] at hfound
  obtain rfl := Option.some.inj hfound
  have htrim : Text.trim (' ' :: '[' :: more) = '[' :: Text.trimRight more :=
    @trim_cons '[' (by decide) more
  rw [htrim]
  exact scalar_bracket _

theorem insertScalars_assigned : insertScalars [] (assigned l.chars) = .ok [] := by
  have hline : ∀ c ∈ l.head, Text.isLineBreak c = false := by
    intro c hc
    rcases l.mem_head hc with hc | hc
    · exact Text.isLineBreak_eq_false_of_isBlank_eq_false
        (isBlank_eq_false_of_isReferenceRest (isReferenceRest_of_isIdentRest hc))
    · exact (by decide : ∀ c ∈ [' ', '=', '['], Text.isLineBreak c = false) c hc
  rw [chars_eq]
  exact insertScalars_of_forall_none (l.writes.scalar_assigned hline (.inr l.isValueless_head)) []

theorem listsFrom_chars (h : ∀ s ∈ l.items, ']' ∉ s) :
    listsFrom true 0 l.chars = [(l.name.chars, l.inner)] := by
  have hstart : listStart? l.chars = some (l.name.chars, l.inner ++ [']']) :=
    listStart?_append l.name.isIdentStart_first l.name.isIdentRest_rest
  have hcut : Text.cutAtChar? ']' (l.inner ++ [']']) = some (l.inner, []) :=
    Text.cutAtChar?_append (l.writes.bracket_not_mem h) []
  exact listsFrom_of_closed hstart hcut

/-- Without commas and closing brackets in its items a list is read as these, whatever else they
hold, and nothing else is. -/
theorem attributes_chars (h : ∀ s ∈ l.items, ',' ∉ s ∧ ']' ∉ s) :
    attributes l.chars = .ok [(l.key, l.value)] := by
  have hitems := l.writes.listItems_append (fun s hs => (h s hs).1) (l.name.chars == dependsOn)
    List.not_mem_nil (rfl : listItem _ (Text.trim []) = .ok none) (by simp)
  have hlists := Resource.insertLists_cons hitems [] []
  rw [attributes, split_of_isFlat l.isFlat_chars]
  simp only [l.listsFrom_chars fun s hs => (h s hs).2]
  exact bind_eq_ok l.insertScalars_assigned (bind_eq_ok hlists rfl)

/-- Under its key the list is read as its items. -/
def IsReadBack : Prop :=
  ∃ entries, attributes l.chars = .ok entries ∧ entries.get? l.key = some l.value

/-- A list is read as its items exactly if none of these holds a comma or a closing bracket. -/
theorem isReadBack_iff : l.IsReadBack ↔ ∀ s ∈ l.items, ',' ∉ s ∧ ']' ∉ s := by
  constructor
  · rintro ⟨entries, hread, hget⟩ s hs
    have hmem := Entries.mem_of_get?_eq_some hget
    have hseparated := isSeparated_of_mem_attributes hread _ hmem (String.ofList s)
      (List.mem_map_of_mem hs)
    rwa [String.toList_ofList] at hseparated
  · intro h
    exact ⟨_, l.attributes_chars h, if_pos rfl⟩

/-- It is enough to count the items that are read. -/
theorem IsReadBack.length_eq {l : ListText} (h : l.IsReadBack) :
    (attributes l.chars).toOption.map (fun es => (es.get? l.key).map (·.listed.length)) =
      some (some l.items.length) := by
  obtain ⟨entries, hread, hget⟩ := h
  simp [hread, hget, Except.toOption, value, Value.listed]

section Layouts

variable (name : Identifier) (items : List (List Char)) (h : ∀ s ∈ items, IsLineText s)

/-- The list of some texts on one line. -/
def oneLine : ListText :=
  ⟨name, onOneLine items, items, writesItems_onOneLine h⟩

/-- The list of some texts on lines of their own. -/
def lines : ListText :=
  ⟨name, onLines items, items, writesItems_onLines h⟩

end Layouts

end ListText

/-- The name of a list. -/
def zones : Identifier :=
  ⟨'z', "ones".toList, by decide, by decide⟩

example : (ListText.oneLine zones ["a".toList, "b # \x7b".toList] (by decide)).chars =
    "  zones = [\"a\", \"b # \x7b\"]".toList := by
  decide

example : (ListText.lines zones ["a".toList, "b".toList] (by decide)).chars =
    "  zones = [\n    \"a\",\n    \"b\",\n  ]".toList := by
  decide

/-- A comma in quotes takes its item apart, and a bracket there ends the list. -/
theorem not_isReadBack :
    (¬ ∀ name items h, name.chars ≠ dependsOn → (ListText.oneLine name items h).IsReadBack) ∧
      ¬ ∀ name items h, name.chars ≠ dependsOn → (ListText.lines name items h).IsReadBack := by
  refine ⟨fun h => ?_, fun h => ?_⟩
  · have hread := h zones ["a,b".toList, "c".toList] (by decide) (by decide)
    exact absurd hread.length_eq (by decide +kernel)
  · have hread := h zones ["a]b".toList, "c".toList] (by decide) (by decide)
    exact absurd hread.length_eq (by decide +kernel)

end Schematic.Hcl
