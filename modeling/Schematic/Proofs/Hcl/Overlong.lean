import Schematic.Hcl.Configuration
import Schematic.Proofs.Hcl.Digits
import Schematic.Proofs.Hcl.Expression

/-!
# Numbers with too many digits

The attributes of a resource are the only part of a configuration whose values are read, and of the
expressions that are read only integers can fail: those with more digits than the limit. So a
configuration has no tree exactly if one of its resources holds such an integer, assigned or as an
item of a list.

## Main definitions

- `IsOverlong` — an integer with too many digits
- `expressions`, `resourceExpressions` — the expressions that values are read from

## Main statements

- `scalar_eq_error_iff` — which expressions fail, and how
- `succeeds_configuration_iff` — which texts have a tree
- `failsWith_configuration` — the cause if one has none
-/

namespace Schematic.Hcl

/-! ## Expressions -/

/-- More digits than are read, perhaps behind a minus. -/
def IsOverlong (raw : List Char) : Prop :=
  ∃ digits, (raw = digits ∨ raw = '-' :: digits) ∧
    (∀ c ∈ digits, Text.isDecimalDigit c = true) ∧ digitLimit < digits.length

/-- What reading a number with too many digits fails with. -/
def IsTooManyDigits (e : NumberError) : Prop :=
  ∃ count, digitLimit < count ∧ e = .tooManyDigits count

/-- A number begins with a minus or a digit. -/
theorem exists_cons_of_isNumber {raw : List Char} (h : isNumber raw = true) :
    ∃ c rest, raw = c :: rest ∧ (c = '-' ∨ Text.isDecimalDigit c = true) := by
  obtain ⟨digits, hunsigned, hraw⟩ := isUnsigned_of_isNumber h
  rcases hraw with rfl | rfl
  · cases hunsigned with
    | whole hne hdigits =>
      obtain ⟨c, rest, rfl⟩ := List.exists_cons_of_ne_nil hne
      exact ⟨c, rest, rfl, .inr (hdigits c List.mem_cons_self)⟩
    | @decimal digits fraction hne hdigits =>
      obtain ⟨c, rest, rfl⟩ := List.exists_cons_of_ne_nil hne
      exact ⟨c, rest ++ '.' :: fraction, rfl, .inr (hdigits c List.mem_cons_self)⟩
  · exact ⟨'-', digits, rfl, .inl rfl⟩

/-- A number is read as one. -/
theorem scalar_of_isNumber {raw : List Char} (h : isNumber raw = true) : scalar raw =
    if raw.contains '.' then (readDecimal (String.ofList raw)).map fun x => some (.float x)
    else (readInt 10 (String.ofList raw)).map fun n => some (.int n) := by
  obtain ⟨c, rest, rfl, hc⟩ := exists_cons_of_isNumber h
  have hne (d : Char) (hdash : d ≠ '-') (hdigit : Text.isDecimalDigit d = false) : c ≠ d := by
    rintro rfl
    rcases hc with rfl | hc
    · exact hdash rfl
    · exact absurd hc (by simp [hdigit])
  have hquote : unquote? (c :: rest) = none := by
    unfold unquote?
    split
    · next heq => exact absurd (List.cons.inj heq).1 (hne '"' (by decide) (by decide))
    · rfl
  have htrue : c :: rest ≠ "true".toList := fun heq =>
    hne 't' (by decide) (by decide) (List.cons.inj heq).1
  have hfalse : c :: rest ≠ "false".toList := fun heq =>
    hne 'f' (by decide) (by decide) (List.cons.inj heq).1
  -- A number is no string and no truth value, for these begin with other characters.
  rw [scalar, hquote]
  simp only [if_neg htrue, if_neg hfalse, if_pos h]

/-- Too many digits are refused. -/
theorem scalar_tooManyDigits {digits : List Char} (hne : digits ≠ [])
    (h : ∀ c ∈ digits, Text.isDecimalDigit c = true) (hlength : digitLimit < digits.length) :
    scalar digits = .error (.tooManyDigits digits.length) := by
  have hnumber : isNumber digits = true := isNumber_digits hne h false
  have hpoint : ¬digits.contains '.' = true := by simp [not_mem_point h]
  rw [scalar_of_isNumber hnumber, if_neg hpoint,
    readInt_tooManyDigits hne h hlength]
  rfl

theorem scalar_minus_tooManyDigits {digits : List Char} (hne : digits ≠ [])
    (h : ∀ c ∈ digits, Text.isDecimalDigit c = true) (hlength : digitLimit < digits.length) :
    scalar ('-' :: digits) = .error (.tooManyDigits digits.length) := by
  have hnumber : isNumber ('-' :: digits) = true := isNumber_digits hne h true
  have hpoint : ¬('-' :: digits).contains '.' = true := by simp [not_mem_point h]
  rw [scalar_of_isNumber hnumber, if_neg hpoint,
    readInt_minus_tooManyDigits hne h hlength]
  rfl

theorem scalar_of_isOverlong {raw : List Char} (h : IsOverlong raw) :
    ∃ e, scalar raw = .error e ∧ IsTooManyDigits e := by
  obtain ⟨digits, hraw, hdigits, hlength⟩ := h
  have hne : digits ≠ [] := List.ne_nil_of_length_pos (Nat.zero_lt_of_lt hlength)
  refine ⟨.tooManyDigits digits.length, ?_, digits.length, hlength, rfl⟩
  rcases hraw with rfl | rfl
  · exact scalar_tooManyDigits hne hdigits hlength
  · exact scalar_minus_tooManyDigits hne hdigits hlength

/-- A number that is no such integer is read. -/
theorem succeeds_scalar_of_isNumber {raw : List Char} (hnumber : isNumber raw = true)
    (h : ¬IsOverlong raw) : Succeeds (scalar raw) := by
  rw [scalar_of_isNumber hnumber]
  obtain ⟨digits, hunsigned, hraw⟩ := isUnsigned_of_isNumber hnumber
  cases hunsigned with
  | whole hne hdigits =>
    have hpoint : ¬raw.contains '.' = true := by
      rcases hraw with rfl | rfl <;> simp [not_mem_point hdigits]
    have hlength : digits.length ≤ digitLimit := by
      apply Nat.not_lt.mp
      exact fun hlt => h ⟨digits, hraw, hdigits, hlt⟩
    rw [if_neg hpoint, succeeds_map_iff]
    rcases hraw with rfl | rfl
    · rw [readInt_digits hne hdigits hlength]
      exact succeeds_ok _
    · rw [readInt_minus_digits hne hdigits hlength]
      exact succeeds_ok _
  | @decimal digits fraction hne hdigits hfne hfraction =>
    have hpoint : raw.contains '.' = true := by
      rcases hraw with rfl | rfl <;> simp
    obtain ⟨hplain, hnegative⟩ := exists_decimal?_digits hne hdigits hfne hfraction
    rw [if_pos hpoint, succeeds_map_iff]
    rcases hraw with rfl | rfl
    · exact exists_readDecimal_eq_ok hplain
    · exact exists_readDecimal_eq_ok hnegative

/-- An expression fails exactly if it is an integer with too many digits. -/
theorem succeeds_scalar_iff {raw : List Char} : Succeeds (scalar raw) ↔ ¬IsOverlong raw := by
  constructor
  · intro hraw h
    obtain ⟨e, he, -⟩ := scalar_of_isOverlong h
    exact not_succeeds_error e (he ▸ hraw)
  · intro h
    by_cases hnumber : isNumber raw = true
    · exact succeeds_scalar_of_isNumber hnumber h
    · -- Only numbers are converted, everything else is taken as it is.
      unfold scalar
      rw [if_neg hnumber]
      repeat' split
      all_goals exact succeeds_ok _

theorem failsWith_scalar (raw : List Char) : FailsWith IsTooManyDigits (scalar raw) := by
  by_cases h : IsOverlong raw
  · obtain ⟨e, he, hcause⟩ := scalar_of_isOverlong h
    rw [he]
    rintro _ ⟨⟩
    exact hcause
  · exact (succeeds_scalar_iff.mpr h).failsWith

/-! ## Items of lists -/

theorem IsOverlong.isNumber {raw : List Char} (h : IsOverlong raw) : isNumber raw = true := by
  obtain ⟨digits, hraw, hdigits, hlength⟩ := h
  have hne : digits ≠ [] := List.ne_nil_of_length_pos (Nat.zero_lt_of_lt hlength)
  rcases hraw with rfl | rfl
  · exact isNumber_digits hne hdigits false
  · exact isNumber_digits hne hdigits true

/-- An address is no number. -/
theorem isReference_eq_false_of_isNumber {raw : List Char} (h : isNumber raw = true) :
    isReference raw = false := by
  obtain ⟨c, rest, rfl, hc⟩ := exists_cons_of_isNumber h
  have hstart : Text.isIdentStart c = false := by
    rcases hc with rfl | hc
    · decide
    · rw [← Bool.not_eq_true]
      intro hstart
      rw [Text.isDecimalDigit_of_ascii (Text.toNat_lt_of_isIdentStart hstart),
        Text.isDigit_eq_false_of_isIdentStart hstart] at hc
      cases hc
  rw [isReference, hstart, Bool.false_and]

/-- Items are read like assigned values, as far as numbers go. -/
theorem listItem_of_isNumber {raw : List Char} (h : isNumber raw = true) (addresses : Bool) :
    listItem addresses raw = scalar raw := by
  obtain ⟨c, rest, rfl, -⟩ := exists_cons_of_isNumber h
  rw [listItem, isReference_eq_false_of_isNumber h, Bool.and_false]
  rfl

theorem succeeds_listItem_iff {addresses : Bool} {raw : List Char} :
    Succeeds (listItem addresses raw) ↔ ¬IsOverlong raw := by
  by_cases hnumber : isNumber raw = true
  · rw [listItem_of_isNumber hnumber, succeeds_scalar_iff]
  · have hshort : ¬IsOverlong raw := fun h => hnumber h.isNumber
    apply iff_of_true _ hshort
    unfold listItem
    split
    · exact succeeds_ok _
    · split
      · exact succeeds_ok _
      · exact succeeds_scalar_iff.mpr hshort

theorem failsWith_listItem (addresses : Bool) (raw : List Char) :
    FailsWith IsTooManyDigits (listItem addresses raw) := by
  unfold listItem
  split
  · exact failsWith_ok _
  · split
    · exact failsWith_ok _
    · exact failsWith_scalar raw

/-! ## Attributes -/

/-- The expressions that attributes are read from: those that are assigned, and the items of
lists. -/
def expressions (body : List Char) : List (List Char) :=
  (assignments body).map Prod.snd ++
    (listsFrom true 0 (split body).top).flatMap fun list =>
      (Text.splitAtChar ',' list.2).map Text.trim

theorem succeeds_insertScalars_iff (entries : Entries Value)
    (assigned : List (List Char × List Char)) :
    Succeeds (insertScalars entries assigned) ↔ ∀ pair ∈ assigned, ¬IsOverlong pair.2 := by
  apply succeeds_foldlM_iff
  intro entries pair _
  rw [← succeeds_scalar_iff]
  -- A value that is left out has been read all the same.
  refine ⟨Succeeds.of_bind, fun h => h.bind fun value _ => ?_⟩
  cases value <;> exact succeeds_pure _

theorem succeeds_listItems_iff (addresses : Bool) (content : List Char) :
    Succeeds (listItems addresses content) ↔
      ∀ raw ∈ (Text.splitAtChar ',' content).map Text.trim, ¬IsOverlong raw := by
  have hitems : Succeeds ((Text.splitAtChar ',' content).mapM fun part =>
      listItem addresses (Text.trim part)) ↔
      ∀ raw ∈ (Text.splitAtChar ',' content).map Text.trim, ¬IsOverlong raw := by
    rw [succeeds_mapM_iff, List.forall_mem_map]
    simp only [succeeds_listItem_iff]
  rw [← hitems]
  exact succeeds_bind_pure_iff

theorem succeeds_insertLists_iff (entries : Entries Value)
    (lists : List (List Char × List Char)) : Succeeds (insertLists entries lists) ↔
      ∀ list ∈ lists, ∀ raw ∈ (Text.splitAtChar ',' list.2).map Text.trim, ¬IsOverlong raw := by
  apply succeeds_foldlM_iff
  intro entries list _
  rw [← succeeds_listItems_iff (list.1 == dependsOn)]
  exact succeeds_bind_pure_iff

/-- A body has attributes exactly if no expression of it has too many digits. -/
theorem succeeds_attributes_iff (body : List Char) :
    Succeeds (attributes body) ↔ ∀ raw ∈ expressions body, ¬IsOverlong raw := by
  rw [expressions, List.forall_mem_append, List.forall_mem_map, List.forall_mem_flatMap]
  constructor
  · rintro ⟨entries, h⟩
    obtain ⟨scalars, hscalars, h⟩ := exists_of_bind_eq_ok h
    obtain ⟨lists, hlists, -⟩ := exists_of_bind_eq_ok h
    exact ⟨(succeeds_insertScalars_iff _ _).mp ⟨scalars, hscalars⟩,
      (succeeds_insertLists_iff _ _).mp ⟨lists, hlists⟩⟩
  · rintro ⟨hassigned, hlists⟩
    refine ((succeeds_insertScalars_iff _ _).mpr hassigned).bind fun scalars _ => ?_
    exact ((succeeds_insertLists_iff _ _).mpr hlists).bind fun _ _ => succeeds_pure _

theorem failsWith_attributes (body : List Char) :
    FailsWith IsTooManyDigits (attributes body) := by
  have hscalars (entries : Entries Value) (assigned : List (List Char × List Char)) :
      FailsWith IsTooManyDigits (insertScalars entries assigned) := by
    refine failsWith_foldlM (fun entries pair _ => ?_) entries
    refine (failsWith_scalar pair.2).bind fun value _ => ?_
    cases value <;> exact failsWith_ok _
  have hitems (addresses : Bool) (content : List Char) :
      FailsWith IsTooManyDigits (listItems addresses content) := by
    refine FailsWith.bind ?_ fun _ _ => failsWith_ok _
    exact failsWith_mapM fun part _ => failsWith_listItem addresses _
  have hlists (entries : Entries Value) (lists : List (List Char × List Char)) :
      FailsWith IsTooManyDigits (insertLists entries lists) := by
    refine failsWith_foldlM (fun entries list _ => ?_) entries
    exact (hitems _ list.2).bind fun _ _ => failsWith_ok _
  exact (hscalars _ _).bind fun scalars _ => (hlists scalars _).bind fun _ _ => failsWith_ok _

/-! ## Configurations -/

/-- The expressions of the resources of a text. A resource has a type and a name. -/
def resourceExpressions (cs : List Char) : List (List Char) :=
  ((blocks "resource" cs).filter fun block => 2 ≤ block.labels.length).flatMap fun block =>
    expressions block.body

theorem succeeds_byType_iff {value : String → Block → Except NumberError Value}
    {bs : List Block} : Succeeds (byType value bs) ↔ ∀ block ∈ bs, ∀ type name more,
      block.labels = type :: name :: more → Succeeds (value name block) := by
  apply succeeds_foldlM_iff
  intro found block _
  cases hlabels : block.labels with
  | nil => simp [succeeds_pure]
  | cons type rest =>
    cases rest with
    | nil => simp [succeeds_pure]
    | cons name more =>
      constructor
      · rintro h _ _ _ ⟨⟩
        exact h.of_bind
      · intro h
        exact (h type name more rfl).bind fun _ _ => succeeds_pure _

theorem failsWith_byType {value : String → Block → Except NumberError Value} {bs : List Block}
    {P : NumberError → Prop} (h : ∀ name, ∀ block ∈ bs, FailsWith P (value name block)) :
    FailsWith P (byType value bs) := by
  refine failsWith_foldlM (fun found block hblock => ?_) []
  split
  · exact (h _ block hblock).bind fun _ _ => failsWith_ok _
  · exact failsWith_ok found

/-- Only the resources of a text can keep it from having a tree. -/
theorem succeeds_configuration_iff_byType (cs : List Char) : Succeeds (configuration cs) ↔
    Succeeds (byType (fun _ block => return .map (← attributes block.body))
      (blocks "resource" cs)) := by
  have hdata : Succeeds (byType (fun name _ => return named name) (blocks "data" cs)) :=
    succeeds_byType_iff.mpr fun _ _ _ _ _ _ => succeeds_pure _
  exact ⟨Succeeds.of_bind, fun h => h.bind fun _ _ => hdata.bind fun _ _ => succeeds_pure _⟩

/-- A text has a tree exactly if no resource of it holds an integer with too many digits. -/
theorem succeeds_configuration_iff (cs : List Char) :
    Succeeds (configuration cs) ↔ ∀ raw ∈ resourceExpressions cs, ¬IsOverlong raw := by
  rw [succeeds_configuration_iff_byType, succeeds_byType_iff, resourceExpressions,
    List.forall_mem_flatMap]
  simp only [List.mem_filter, decide_eq_true_eq, and_imp, ← succeeds_attributes_iff]
  refine forall₂_congr fun block _ => ⟨fun h hlength => ?_, fun h type name more hlabels => ?_⟩
  · obtain ⟨type, name, more, hlabels⟩ : ∃ type name more, block.labels = type :: name :: more := by
      cases hlabels : block.labels with
      | nil => simp [hlabels] at hlength
      | cons type rest =>
        cases rest with
        | nil => simp [hlabels] at hlength
        | cons name more => exact ⟨type, name, more, rfl⟩
    exact succeeds_bind_pure_iff.mp (h type name more hlabels)
  · exact succeeds_bind_pure_iff.mpr (h (by simp [hlabels]))

theorem failsWith_configuration (cs : List Char) :
    FailsWith IsTooManyDigits (configuration cs) := by
  have hresources : FailsWith IsTooManyDigits
      (byType (fun _ block => return .map (← attributes block.body)) (blocks "resource" cs)) :=
    failsWith_byType fun _ block _ =>
      (failsWith_attributes block.body).bind fun _ _ => failsWith_ok _
  have hdata : FailsWith IsTooManyDigits
      (byType (fun name _ => return named name) (blocks "data" cs)) :=
    failsWith_byType fun _ _ _ => failsWith_ok _
  exact hresources.bind fun _ _ => hdata.bind fun _ _ => failsWith_ok _

end Schematic.Hcl
