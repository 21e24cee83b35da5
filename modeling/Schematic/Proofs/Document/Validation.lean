import Schematic.Document.Validation

/-!
# Trees without errors

What the check of a tree asks for, said without the check: `IsWellFormed` names for every format
the fields and shapes that a tree needs. A tree passes its check exactly if it is of that form;
everything else that a check finds is a warning.

## Main definitions

- `IsWellFormed` — the form that a tree of a format has
- `Validation.IsClean` — findings without an error

## Main statements

- `validate_valid_iff` — the check accepts exactly the well-formed trees
- `isClean_of_valid` — a tree that is accepted has warnings only
-/

namespace Schematic

/-- The form that a tree of a format has: fields that are present, and the shapes of their values
where these are mappings at all. Nothing is of an unknown format. -/
def IsWellFormed (tree : Value) : Format → Prop
  | .compose =>
    tree.entries.hasKey "version" = true ∧ tree.entries.hasKey "services" = true ∧
      ∀ service ∈ tree.getEntries "services", service.2.isMap = true
  | .kubernetes =>
    (∃ version, tree.get "apiVersion" = .str version) ∧ ∃ kind, tree.get "kind" = .str kind
  | .cloudFormation =>
    tree.entries.hasKey "Resources" = true ∧
      ∀ resource ∈ tree.getEntries "Resources",
        resource.2.isMap = true ∧ (resource.2.get "Type").isTruthy = true
  | .resourceManager =>
    tree.entries.hasKey "$schema" = true ∧ tree.entries.hasKey "contentVersion" = true ∧
      tree.entries.hasKey "resources" = true ∧
      (tree.get "resources" = .null ∨ ∃ resources, tree.get "resources" = .list resources)
  | .terraform | .ibmCloud => True
  | .unknown => False

namespace Validation

/-- Findings none of which is an error. -/
def IsClean (issues : List Issue) : Prop :=
  ∀ issue ∈ issues, issue.severity ≠ .error

/-! ## Findings put together -/

theorem isClean_nil : IsClean [] := by
  simp [IsClean]

theorem isClean_append {xs ys : List Issue} : IsClean (xs ++ ys) ↔ IsClean xs ∧ IsClean ys := by
  simp only [IsClean, List.mem_append, or_imp, forall_and]

theorem isClean_unlessHolds {condition : Bool} {issue : Issue} :
    IsClean (unlessHolds condition issue) ↔ issue.severity = .error → condition = true := by
  cases condition <;> simp [unlessHolds, IsClean]

/-- Findings one by one are clean if no single one is an error. -/
theorem isClean_filterMap {α : Type} {f : α → Option Issue} {xs : List α} :
    IsClean (xs.filterMap f) ↔ ∀ x ∈ xs, ∀ issue, f x = some issue → issue.severity ≠ .error := by
  constructor
  · intro h x hx issue hissue
    exact h issue (List.mem_filterMap.mpr ⟨x, hx, hissue⟩)
  · intro h issue hissue
    obtain ⟨x, hx, hfx⟩ := List.mem_filterMap.mp hissue
    exact h x hx issue hfx

theorem ofIssues_valid_iff {issues : List Issue} :
    (ofIssues issues).valid = true ↔ IsClean issues := by
  simp [ofIssues, IsClean]

/-! ## The checks -/

variable {tree : Value}

/-- A field that is not null is present. -/
theorem hasKey_of_get {key : String} (h : tree.get key ≠ .null) :
    tree.entries.hasKey key = true := by
  unfold Value.get at h
  unfold Entries.hasKey
  cases hget : tree.entries.get? key with
  | none => simp [hget] at h
  | some v => rfl

theorem isClean_checkRequired {format : Format} :
    IsClean (checkRequired tree format) ↔
      ∀ field ∈ requiredFields format, tree.entries.hasKey field = true := by
  refine isClean_filterMap.trans (forall₂_congr fun field _ => ?_)
  cases tree.entries.hasKey field <;> simp

theorem isClean_checkCompose :
    IsClean (checkCompose tree) ↔
      ∀ service ∈ tree.getEntries "services", service.2.isMap = true := by
  refine isClean_filterMap.trans (forall₂_congr fun service _ => ?_)
  obtain ⟨name, config⟩ := service
  cases hmap : config.isMap with
  | false => simp [hmap]
  | true =>
    -- A service without image and build is a warning only.
    cases (config.get "image").isTruthy || (config.get "build").isTruthy <;> simp [hmap]

theorem isSome_str?_iff {v : Value} : v.str?.isSome = true ↔ ∃ s, v = .str s := by
  cases v <;> simp [Value.str?]

theorem isClean_checkKubernetes :
    IsClean (checkKubernetes tree) ↔
      (∃ version, tree.get "apiVersion" = .str version) ∧
        ∃ kind, tree.get "kind" = .str kind := by
  simp [checkKubernetes, isClean_append, isClean_unlessHolds, isSome_str?_iff]

theorem isClean_checkCloudFormation :
    IsClean (checkCloudFormation tree) ↔
      ∀ resource ∈ tree.getEntries "Resources",
        resource.2.isMap = true ∧ (resource.2.get "Type").isTruthy = true := by
  refine isClean_filterMap.trans (forall₂_congr fun resource _ => ?_)
  obtain ⟨name, config⟩ := resource
  cases hmap : config.isMap with
  | false => simp [hmap]
  | true => cases htype : (config.get "Type").isTruthy <;> simp [hmap, htype]

theorem isClean_checkTerraform : IsClean (checkTerraform tree) := by
  simp [checkTerraform, isClean_unlessHolds]

theorem isClean_checkResourceManager :
    IsClean (checkResourceManager tree) ↔
      tree.get "resources" = .null ∨ ∃ resources, tree.get "resources" = .list resources := by
  unfold checkResourceManager
  split
  · next h => simp [h, isClean_nil]
  · next resources h =>
    refine iff_of_true ?_ (.inr ⟨resources, h⟩)
    rw [isClean_filterMap]
    intro resource _ issue hissue
    -- A resource without a type is a warning only.
    cases htype : (resource.1.get "type").isTruthy <;> simp [htype] at hissue
    simp [← hissue]
  · next hnull hlist =>
    refine iff_of_false (by simp [IsClean]) ?_
    rintro (h | ⟨resources, h⟩)
    · exact hnull h
    · exact hlist resources h

theorem isClean_checkIbmCloud : IsClean (checkIbmCloud tree) := by
  unfold checkIbmCloud
  split <;> simp [IsClean]

end Validation

open Validation

/-- A tree that is accepted has warnings only. -/
theorem isClean_of_valid {tree : Value} {format : Format}
    (h : (validate tree format).valid = true) : IsClean (validate tree format).issues := by
  -- Every branch of the check judges its own findings.
  obtain ⟨issues, hissues⟩ : ∃ issues, validate tree format = ofIssues issues := by
    unfold validate
    split
    · exact ⟨_, rfl⟩
    · split <;> exact ⟨_, rfl⟩
  rw [hissues] at h ⊢
  exact ofIssues_valid_iff.mp h

/-- The check of a tree accepts exactly the trees of the form that the format asks for. -/
theorem validate_valid_iff {tree : Value} {format : Format} (hmap : tree.isMap = true) :
    (validate tree format).valid = true ↔ IsWellFormed tree format := by
  have checked (hformat : format ≠ .unknown) : (validate tree format).valid = true ↔
      (∀ field ∈ requiredFields format, tree.entries.hasKey field = true) ∧
        IsClean (checkShape tree format) := by
    rw [validate, if_neg (by simp [hmap]), if_neg hformat, ofIssues_valid_iff, isClean_append,
      isClean_checkRequired]
  cases format with
  | compose =>
    rw [checked (by decide)]
    simp [requiredFields, checkShape, isClean_checkCompose, IsWellFormed, and_assoc]
  | kubernetes =>
    rw [checked (by decide)]
    simp only [requiredFields, checkShape, isClean_checkKubernetes, IsWellFormed]
    refine and_iff_right_of_imp fun h => ?_
    -- What holds a text is present, so the two fields are not asked for twice.
    obtain ⟨⟨version, hversion⟩, kind, hkind⟩ := h
    have hasVersion : tree.entries.hasKey "apiVersion" = true :=
      hasKey_of_get (by simp [hversion])
    have hasKind : tree.entries.hasKey "kind" = true := hasKey_of_get (by simp [hkind])
    simp [hasVersion, hasKind]
  | cloudFormation =>
    rw [checked (by decide)]
    simp [requiredFields, checkShape, isClean_checkCloudFormation, IsWellFormed]
  | resourceManager =>
    rw [checked (by decide)]
    simp [requiredFields, checkShape, isClean_checkResourceManager, IsWellFormed, and_assoc]
  | terraform =>
    rw [checked (by decide)]
    simp [requiredFields, checkShape, isClean_checkTerraform, IsWellFormed]
  | ibmCloud =>
    rw [checked (by decide)]
    simp [requiredFields, checkShape, isClean_checkIbmCloud, IsWellFormed]
  | unknown => simp [validate, hmap, IsWellFormed, ofIssues]

end Schematic
