import Mathlib.Tactic.SplitIfs
import Schematic.Hcl.Configuration
import Schematic.Proofs.Success
import Schematic.Proofs.Value.Plain

/-!
# The tree of a configuration is plain

Expressions have text, truth values and numbers as their values, or nothing. Lists, tags and
sections are made of these.

## Main statements

- `cases_of_scalar` — what an expression may stand for
- `isPlain_scalar`, `isPlain_listItems` — expressions and lists
- `forall_mem_attributes`, `isPlain_attributes` — the attributes of a body
- `isPlain_configuration` — the tree of a text
-/

namespace Schematic.Hcl

/-- Every value of a mapping is a plain tree. -/
def IsPlain (entries : Entries Value) : Prop :=
  ∀ e ∈ entries, e.2.isPlain = true

theorem isPlain_nil : IsPlain [] := by
  simp [IsPlain]

theorem IsPlain.insert {entries : Entries Value} (h : IsPlain entries) {value : Value}
    (hvalue : value.isPlain = true) (key : String) : IsPlain (entries.insert key value) :=
  Entries.forall_mem_insert (P := fun v : Value => v.isPlain = true) h hvalue key

theorem IsPlain.map {entries : Entries Value} (h : IsPlain entries) :
    (Value.map entries).isPlain = true :=
  Value.isPlain_map_iff.mpr h

/-! ## Expressions -/

/-- An expression stands for the text in its quotes, for a truth value, for a number or for the
interpolation of a reference. -/
theorem cases_of_scalar {raw : List Char} {value : Value} (h : scalar raw = .ok (some value)) :
    (∃ text, unquote? raw = some text ∧ value = .str (String.ofList text)) ∨
      (∃ b, value = .bool b) ∨ (∃ x, value = .float x) ∨ (∃ n, value = .int n) ∨
      value = .str (interpolated raw) := by
  unfold scalar at h
  split at h
  · next text hquoted =>
    obtain rfl := Option.some.inj (Except.ok.inj h)
    exact .inl ⟨text, hquoted, rfl⟩
  · split_ifs at h
    · exact .inr (.inl ⟨true, (Option.some.inj (Except.ok.inj h)).symm⟩)
    · exact .inr (.inl ⟨false, (Option.some.inj (Except.ok.inj h)).symm⟩)
    · obtain ⟨x, -, hx⟩ := map_eq_ok_iff.mp h
      exact .inr (.inr (.inl ⟨x, (Option.some.inj hx).symm⟩))
    · obtain ⟨n, -, hn⟩ := map_eq_ok_iff.mp h
      exact .inr (.inr (.inr (.inl ⟨n, (Option.some.inj hn).symm⟩)))
    · exact .inr (.inr (.inr (.inr (Option.some.inj (Except.ok.inj h)).symm)))
    · cases h

theorem isPlain_scalar {raw : List Char} {value : Value} (h : scalar raw = .ok (some value)) :
    value.isPlain = true := by
  obtain ⟨text, -, rfl⟩ | ⟨b, rfl⟩ | ⟨x, rfl⟩ | ⟨n, rfl⟩ | rfl := cases_of_scalar h <;> rfl

theorem isPlain_listItem {addresses : Bool} {raw : List Char} {value : Value}
    (h : listItem addresses raw = .ok (some value)) : value.isPlain = true := by
  unfold listItem at h
  split_ifs at h
  · cases h
  · obtain rfl := Option.some.inj (Except.ok.inj h)
    rfl
  · exact isPlain_scalar h

theorem isPlain_listItems {addresses : Bool} {raw : List Char} {items : List Value}
    (h : listItems addresses raw = .ok items) : (Value.list items).isPlain = true := by
  obtain ⟨found, hfound, h⟩ := exists_of_bind_eq_ok h
  obtain rfl := Except.ok.inj h
  refine Value.isPlain_list_iff.mpr fun value hvalue => ?_
  obtain ⟨item, hitem, rfl⟩ := List.mem_filterMap.mp hvalue
  obtain ⟨part, -, hpart⟩ := exists_mem_of_mapM_eq_ok hfound _ hitem
  exact isPlain_listItem hpart

/-! ## Attributes -/

theorem isPlain_tags (inner : List Char) : (tags inner).isPlain = true := by
  refine Value.isPlain_map_iff.mpr ?_
  apply Entries.forall_mem_ofList (P := fun v : Value => v.isPlain = true)
  intro e he
  obtain ⟨found, -, rfl⟩ := List.mem_map.mp he
  rfl

section Values

variable {P : Value → Prop} {entries result : Entries Value}

theorem forall_mem_insertScalars
    (hscalar : ∀ raw value, scalar raw = .ok (some value) → P value)
    (hentries : ∀ e ∈ entries, P e.2) {assigned : List (List Char × List Char)}
    (h : insertScalars entries assigned = .ok result) : ∀ e ∈ result, P e.2 := by
  refine of_foldlM_eq_ok (P := fun es => ∀ e ∈ es, P e.2)
    (fun entry _ before after hbefore hstep => ?_) hentries h
  obtain ⟨found, hfound, hstep⟩ := exists_of_bind_eq_ok hstep
  cases found with
  | none => exact Except.ok.inj hstep ▸ hbefore
  | some value =>
    rw [← Except.ok.inj hstep]
    exact Entries.forall_mem_insert hbefore (hscalar _ _ hfound) _

theorem forall_mem_insertLists {lists : List (List Char × List Char)}
    (hlist : ∀ list ∈ lists, ∀ items, listItems (list.1 == dependsOn) list.2 = .ok items →
      P (.list items))
    (hentries : ∀ e ∈ entries, P e.2) (h : insertLists entries lists = .ok result) :
    ∀ e ∈ result, P e.2 := by
  refine of_foldlM_eq_ok (P := fun es => ∀ e ∈ es, P e.2)
    (fun list hmem before after hbefore hstep => ?_) hentries h
  obtain ⟨items, hitems, hstep⟩ := exists_of_bind_eq_ok hstep
  rw [← Except.ok.inj hstep]
  exact Entries.forall_mem_insert hbefore (hlist list hmem items hitems) _

theorem forall_mem_insertTags (htags : ∀ inner, P (tags inner)) (hentries : ∀ e ∈ entries, P e.2)
    (nested : List Nested) : ∀ e ∈ insertTags entries nested, P e.2 := by
  refine List.foldlRecOn (motive := fun es : Entries Value => ∀ e ∈ es, P e.2) nested _ hentries ?_
  intro before hbefore block _
  split
  · exact Entries.forall_mem_insert hbefore (htags block.inner) "tags"
  · exact hbefore

/-- What single values, lists and tags have in common, all attributes of a body have. -/
theorem forall_mem_attributes {body : List Char}
    (hscalar : ∀ raw value, scalar raw = .ok (some value) → P value)
    (hlist : ∀ list ∈ listsFrom true 0 (split body).top, ∀ items,
      listItems (list.1 == dependsOn) list.2 = .ok items → P (.list items))
    (htags : ∀ inner, P (tags inner)) (h : attributes body = .ok result) :
    ∀ e ∈ result, P e.2 := by
  obtain ⟨scalars, hscalars, h⟩ := exists_of_bind_eq_ok h
  obtain ⟨lists, hlists, h⟩ := exists_of_bind_eq_ok h
  have hfound := forall_mem_insertScalars hscalar (by simp) hscalars
  rw [← Except.ok.inj h]
  exact forall_mem_insertTags htags (forall_mem_insertLists hlist hfound hlists) _

end Values

theorem isPlain_attributes {body : List Char} {result : Entries Value}
    (h : attributes body = .ok result) : IsPlain result :=
  forall_mem_attributes (fun _ _ => isPlain_scalar) (fun _ _ _ => isPlain_listItems) isPlain_tags h

/-! ## Sections -/

theorem isPlain_byName {value : String → Block → Value}
    (hvalue : ∀ name block, (value name block).isPlain = true) (bs : List Block) :
    IsPlain (byName value bs) := by
  apply List.foldlRecOn bs _ isPlain_nil
  intro before hbefore block _
  split
  · exact hbefore
  · next name _ _ => exact hbefore.insert (hvalue name block) name

theorem isPlain_insertTyped {found : Entries Value} (h : IsPlain found) {value : Value}
    (hvalue : value.isPlain = true) (type name : String) :
    IsPlain (insertTyped found type name value) := by
  have hsame : IsPlain ((found.get? type).getD (.map [])).entries := by
    cases hget : found.get? type with
    | none => exact isPlain_nil
    | some v =>
      have hv := h _ (Entries.mem_of_get?_eq_some hget)
      cases v with
      | map es => exact Value.isPlain_map_iff.mp hv
      | _ => exact isPlain_nil
  exact h.insert (hsame.insert hvalue name).map type

theorem isPlain_byType {value : String → Block → Except NumberError Value}
    (hvalue : ∀ name block v, value name block = .ok v → v.isPlain = true) {bs : List Block}
    {result : Entries Value} (h : byType value bs = .ok result) : IsPlain result := by
  refine of_foldlM_eq_ok (fun block _ before after hbefore hstep => ?_) isPlain_nil h
  split at hstep
  · next type name _ _ =>
    obtain ⟨v, hv, hstep⟩ := exists_of_bind_eq_ok hstep
    rw [← Except.ok.inj hstep]
    exact isPlain_insertTyped hbefore (hvalue name block v hv) type name
  · exact Except.ok.inj hstep ▸ hbefore

theorem isPlain_filled {entries : Entries Value} (h : IsPlain entries) (key : String) :
    IsPlain (filled key entries) := by
  unfold filled
  split
  · exact isPlain_nil
  · exact List.forall_mem_singleton.mpr h.map

/-- Everything in the tree of a text is text, a truth value, a number, a list or a mapping. -/
theorem isPlain_configuration {cs : List Char} {tree : Entries Value}
    (h : configuration cs = .ok tree) : (Value.map tree).isPlain = true := by
  obtain ⟨resources, hresources, h⟩ := exists_of_bind_eq_ok h
  obtain ⟨data, hdata, h⟩ := exists_of_bind_eq_ok h
  have hnamed (name : String) : (named name).isPlain = true := rfl
  have hbyName := isPlain_byName fun name _ => hnamed name
  have hentry (name : String) (block : Block) : (moduleEntry name block).isPlain = true := rfl
  have hmodules := isPlain_byName hentry (blocks "module" cs)
  have hresources : IsPlain resources := by
    refine isPlain_byType (fun _ block v hv => ?_) hresources
    obtain ⟨attributes, hattributes, hv⟩ := exists_of_bind_eq_ok hv
    exact Except.ok.inj hv ▸ (isPlain_attributes hattributes).map
  have hdata : IsPlain data := by
    refine isPlain_byType (fun name _ v hv => ?_) hdata
    exact Except.ok.inj hv ▸ hnamed name
  rw [← Except.ok.inj h]
  apply IsPlain.map
  simp only [IsPlain, List.forall_mem_append]
  exact ⟨⟨⟨⟨isPlain_filled (hbyName _) _, isPlain_filled hresources _⟩, isPlain_filled hdata _⟩,
    isPlain_filled (hbyName _) _⟩, isPlain_filled hmodules _⟩

end Schematic.Hcl
