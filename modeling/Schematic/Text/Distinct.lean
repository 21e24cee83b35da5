/-!
# Distinct texts

## Main definitions

- `distinct` — the first of each of equal texts, in their order
-/

namespace Schematic.Text

/-- Append a text unless it is there. -/
def addNew (seen : List String) (text : String) : List String :=
  if text ∈ seen then seen else seen ++ [text]

/-- Keep the first of equal texts. -/
def distinct (texts : List String) : List String :=
  texts.foldl addNew []

theorem mem_addNew {seen : List String} {text other : String} :
    other ∈ addNew seen text ↔ other ∈ seen ∨ other = text := by
  unfold addNew
  split
  · constructor
    · exact .inl
    · rintro (h | rfl) <;> assumption
  · simp

theorem mem_foldl_addNew {texts seen : List String} {other : String} :
    other ∈ texts.foldl addNew seen ↔ other ∈ seen ∨ other ∈ texts := by
  induction texts generalizing seen with
  | nil => simp
  | cons text texts ih => simp [ih, mem_addNew, or_assoc]

/-- Nothing is lost and nothing is added. -/
@[simp] theorem mem_distinct {texts : List String} {other : String} :
    other ∈ distinct texts ↔ other ∈ texts := by
  simp [distinct, mem_foldl_addNew]

theorem nodup_addNew {seen : List String} (h : seen.Nodup) (text : String) :
    (addNew seen text).Nodup := by
  unfold addNew
  split
  · exact h
  · rename_i hnew
    rw [List.nodup_append]
    refine ⟨h, by simp, ?_⟩
    intro a ha b hb
    simp only [List.mem_singleton] at hb
    rintro rfl
    exact hnew (hb ▸ ha)

/-- No text is left twice. -/
theorem nodup_distinct (texts : List String) : (distinct texts).Nodup := by
  have go : ∀ (ts seen : List String), seen.Nodup → (ts.foldl addNew seen).Nodup := by
    intro ts
    induction ts with
    | nil => exact fun _ h => h
    | cons t ts ih => exact fun seen h => ih _ (nodup_addNew h t)
  exact go texts [] List.nodup_nil

/-- Whoever appends only what is not there yet appends the first of each of equal elements. -/
theorem foldl_append_new {α : Type} [DecidableEq α] (xs seen : List α) :
    xs.foldl (fun seen x => if x ∈ seen then seen else seen ++ [x]) seen =
      seen ++ (xs.filter (· ∉ seen)).eraseDups := by
  induction xs generalizing seen with
  | nil => simp
  | cons x xs ih =>
    rw [List.foldl_cons, ih]
    split
    · next hseen => simp [hseen]
    · next hnew =>
      -- What is equal to the new element is left out from here on.
      have hrest : xs.filter (· ∉ seen ++ [x]) =
          (xs.filter (· ∉ seen)).filter fun other => !other == x := by
        rw [List.filter_filter]
        refine List.filter_congr fun other _ => ?_
        by_cases heq : other = x <;> simp [heq]
      rw [hrest, List.filter_cons_of_pos (by simpa using hnew), List.eraseDups_cons]
      simp

/-- Of equal texts the first one is kept. -/
theorem distinct_eq_eraseDups (texts : List String) : distinct texts = texts.eraseDups := by
  have hall : texts.filter (· ∉ ([] : List String)) = texts :=
    List.filter_eq_self.mpr (by simp)
  exact (foldl_append_new texts []).trans (by rw [hall, List.nil_append])

/-- What is there already need not be new among the texts that are appended. -/
theorem foldl_addNew_foldl_addNew (more texts seen : List String) :
    (more.foldl addNew texts).foldl addNew seen = more.foldl addNew (texts.foldl addNew seen) := by
  induction more generalizing texts with
  | nil => rfl
  | cons text more ih =>
    have hstep : (addNew texts text).foldl addNew seen =
        addNew (texts.foldl addNew seen) text := by
      by_cases htext : text ∈ texts
      · rw [addNew, if_pos htext, addNew, if_pos (mem_foldl_addNew.mpr (.inr htext))]
      · rw [addNew, if_neg htext, List.foldl_append, List.foldl_cons, List.foldl_nil]
    rw [List.foldl_cons, ih, hstep, List.foldl_cons]

/-- Whether a text repeats one of its own list makes no difference behind other texts. -/
theorem eraseDups_append_eraseDups (texts more : List String) :
    (texts ++ more.eraseDups).eraseDups = (texts ++ more).eraseDups := by
  simp only [← distinct_eq_eraseDups]
  rw [distinct, distinct, distinct, List.foldl_append, List.foldl_append]
  exact foldl_addNew_foldl_addNew more [] _

end Schematic.Text
