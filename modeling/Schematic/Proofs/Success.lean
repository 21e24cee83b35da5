import Mathlib.Data.List.Forall2

/-!
# Computations with a result

Reading and writing numbers can fail, and with it everything that shows a number. `Succeeds` says
that a computation has a result, and `FailsWith` tells the causes that it may fail for. The rules
below carry both through the ways in which computations are put together, so that a function that
succeeds need never be unfolded by its callers.

## Main definitions

- `Succeeds` — a computation has a result
- `FailsWith` — it has one or fails for a cause of a kind
- `SameUnless` — it comes to the same as another one, or fails for a cause of a kind

## Main statements

- `Succeeds.bind`, `succeeds_mapM`, `exists_foldlM_eq_ok` — sequences, traversals and folds
- `succeeds_mapM_iff`, `succeeds_foldlM_iff`, `foldlM_iff` — what a result tells about the steps
- `mapM_eq_ok_iff` — the results of a traversal are those of its steps, in order
-/

namespace Schematic

variable {ε α β : Type}

/-- A computation has a result. -/
def Succeeds (r : Except ε α) : Prop :=
  ∃ a, r = .ok a

theorem succeeds_pure (a : α) : Succeeds (pure a : Except ε α) :=
  ⟨a, rfl⟩

theorem succeeds_ok (a : α) : Succeeds (.ok a : Except ε α) :=
  ⟨a, rfl⟩

/-- A computation goes on where the first part has a result. -/
theorem Succeeds.bind {r : Except ε α} {f : α → Except ε β} (hr : Succeeds r)
    (hf : ∀ a, r = .ok a → Succeeds (f a)) : Succeeds (r >>= f) := by
  obtain ⟨a, rfl⟩ := hr
  exact hf a rfl

/-- What a sequence results in, its parts result in one after the other. -/
theorem exists_of_bind_eq_ok {r : Except ε α} {f : α → Except ε β} {b : β}
    (h : r >>= f = .ok b) : ∃ a, r = .ok a ∧ f a = .ok b := by
  cases r with
  | error e => cases h
  | ok a => exact ⟨a, rfl, h⟩

/-- A computation goes on with the result of its first part. -/
theorem bind_eq_ok {r : Except ε α} {f : α → Except ε β} {a : α} {b : β} (hr : r = .ok a)
    (hf : f a = .ok b) : r >>= f = .ok b := by
  rw [hr]
  exact hf

/-- A result that a function was applied to is the function of a result. -/
theorem map_eq_ok_iff {r : Except ε α} {g : α → β} {b : β} :
    r.map g = .ok b ↔ ∃ a, r = .ok a ∧ g a = b := by
  cases r <;> simp [Except.map]

/-- Renaming causes of failure changes no result. -/
theorem mapError_eq_ok_iff {δ : Type} {r : Except ε α} {g : ε → δ} {a : α} :
    r.mapError g = .ok a ↔ r = .ok a := by
  cases r with
  | error e =>
    show (Except.error (g e) : Except δ α) = .ok a ↔ (Except.error e : Except ε α) = .ok a
    simp
  | ok b =>
    show (Except.ok b : Except δ α) = .ok a ↔ (Except.ok b : Except ε α) = .ok a
    simp

/-- Something that is known of a result says that there is one. -/
theorem exists_of_toOption_map_eq_some {r : Except ε α} {g : α → β} {b : β}
    (h : r.toOption.map g = some b) : ∃ a, r = .ok a ∧ g a = b := by
  cases r with
  | error e => cases h
  | ok a => exact ⟨a, rfl, Option.some.inj h⟩

theorem not_succeeds_error (e : ε) : ¬Succeeds (.error e : Except ε α) := by
  rintro ⟨a, ha⟩
  cases ha

/-- If a computation can fail for one cause only, that is there whenever it has no result. -/
theorem eq_error_or_eq_ok {r : Except ε α} {p : Prop} (h : ¬p → Succeeds r) :
    (∃ e, r = .error e ∧ p) ∨ ∃ a, r = .ok a := by
  cases r with
  | error e => exact .inl ⟨e, rfl, not_not.mp fun hp => not_succeeds_error e (h hp)⟩
  | ok a => exact .inr ⟨a, rfl⟩

theorem Succeeds.of_bind {r : Except ε α} {f : α → Except ε β} (h : Succeeds (r >>= f)) :
    Succeeds r := by
  obtain ⟨b, hb⟩ := h
  obtain ⟨a, ha, -⟩ := exists_of_bind_eq_ok hb
  exact ⟨a, ha⟩

theorem succeeds_map_iff {r : Except ε α} {g : α → β} : Succeeds (r.map g) ↔ Succeeds r := by
  cases r with
  | error e => exact iff_of_false (not_succeeds_error e) (not_succeeds_error e)
  | ok a => exact iff_of_true (succeeds_ok (g a)) (succeeds_ok a)

/-- Where the last part always has a result, only the first part counts. -/
theorem succeeds_bind_pure_iff {r : Except ε α} {g : α → β} :
    Succeeds (r >>= fun a => pure (g a)) ↔ Succeeds r :=
  ⟨Succeeds.of_bind, fun h => h.bind fun a _ => succeeds_pure (g a)⟩

theorem succeeds_bind_bind_iff {γ : Type} {r : Except ε α} {s : Except ε β}
    {f : α → β → Except ε γ} (hf : ∀ a b, Succeeds (f a b)) :
    Succeeds (r >>= fun a => s >>= f a) ↔ Succeeds r ∧ Succeeds s := by
  constructor
  · rintro ⟨c, h⟩
    obtain ⟨a, ha, h⟩ := exists_of_bind_eq_ok h
    obtain ⟨b, hb, -⟩ := exists_of_bind_eq_ok h
    exact ⟨⟨a, ha⟩, b, hb⟩
  · rintro ⟨hr, hs⟩
    exact hr.bind fun a _ => hs.bind fun b _ => hf a b

theorem Succeeds.ite {c : Prop} [Decidable c] {r s : Except ε α} (hr : c → Succeeds r)
    (hs : ¬c → Succeeds s) : Succeeds (if c then r else s) := by
  split
  · next h => exact hr h
  · next h => exact hs h

/-! ## Traversals -/

/-- A traversal has a result if every step of it has one. -/
theorem succeeds_mapM {f : α → Except ε β} {xs : List α} (h : ∀ x ∈ xs, Succeeds (f x)) :
    Succeeds (xs.mapM f) := by
  induction xs with
  | nil => exact succeeds_pure []
  | cons x xs ih =>
    rw [List.mapM_cons]
    refine (h x List.mem_cons_self).bind fun y _ => ?_
    refine (ih fun z hz => h z (List.mem_cons_of_mem _ hz)).bind fun ys _ => ?_
    exact succeeds_pure (y :: ys)

theorem succeeds_mapM_iff {f : α → Except ε β} {xs : List α} :
    Succeeds (xs.mapM f) ↔ ∀ x ∈ xs, Succeeds (f x) := by
  refine ⟨fun h => ?_, succeeds_mapM⟩
  induction xs with
  | nil => simp
  | cons x xs ih =>
    rw [List.mapM_cons] at h
    obtain ⟨y, hx⟩ := h.of_bind
    rw [hx] at h
    have hrest : Succeeds (xs.mapM f >>= fun ys => pure (y :: ys)) := h
    rw [List.forall_mem_cons]
    exact ⟨⟨y, hx⟩, ih hrest.of_bind⟩

/-- A traversal of pairs has a result if every step has one. -/
theorem succeeds_mapM_pairs {γ : Type} {f : α → β → Except ε γ} {ps : List (α × β)}
    (h : ∀ p ∈ ps, Succeeds (f p.1 p.2)) : Succeeds (ps.mapM fun (a, b) => f a b) :=
  succeeds_mapM h

/-- A traversal whose steps have known results. -/
theorem mapM_eq_ok {f : α → Except ε β} {g : α → β} {xs : List α}
    (h : ∀ x ∈ xs, f x = .ok (g x)) : xs.mapM f = .ok (xs.map g) := by
  induction xs with
  | nil => rfl
  | cons x xs ih =>
    rw [List.mapM_cons, h x List.mem_cons_self, ih fun y hy => h y (List.mem_cons_of_mem _ hy)]
    rfl

/-- A fold has a result if an invariant makes every step of it have one and survives the step. -/
theorem exists_foldlM_eq_ok {P : β → Prop} {f : β → α → Except ε β} {xs : List α}
    (step : ∀ b, P b → ∀ x ∈ xs, ∃ b', f b x = .ok b' ∧ P b') {b : β} (hb : P b) :
    ∃ b', xs.foldlM f b = .ok b' ∧ P b' := by
  induction xs generalizing b with
  | nil => exact ⟨b, rfl, hb⟩
  | cons x xs ih =>
    obtain ⟨b', hx, hb'⟩ := step b hb x List.mem_cons_self
    rw [List.foldlM_cons, hx]
    exact ih (fun c hc y hy => step c hc y (List.mem_cons_of_mem _ hy)) hb'

/-- A fold whose steps have results whatever came before has one if all steps do. -/
theorem succeeds_foldlM_iff {p : α → Prop} {f : β → α → Except ε β} {xs : List α}
    (hstep : ∀ b, ∀ x ∈ xs, (Succeeds (f b x) ↔ p x)) (b : β) :
    Succeeds (xs.foldlM f b) ↔ ∀ x ∈ xs, p x := by
  induction xs generalizing b with
  | nil => simp [succeeds_pure]
  | cons x xs ih =>
    have hrest := ih fun b y hy => hstep b y (List.mem_cons_of_mem _ hy)
    rw [List.foldlM_cons, List.forall_mem_cons, ← hstep b x List.mem_cons_self]
    constructor
    · intro h
      obtain ⟨b', hb'⟩ := h.of_bind
      rw [hb'] at h
      exact ⟨⟨b', hb'⟩, (hrest b').mp h⟩
    · rintro ⟨hx, hxs⟩
      exact hx.bind fun b' _ => (hrest b').mpr hxs

/-- What one step of a fold brings about or keeps, the result of the fold has if it was there at the
start or one of the steps brings it about. -/
theorem foldlM_iff {P : β → Prop} {q : α → Prop} {f : β → α → Except ε β} {xs : List α}
    (hstep : ∀ x ∈ xs, ∀ b b', f b x = .ok b' → (P b' ↔ P b ∨ q x)) {b result : β}
    (h : xs.foldlM f b = .ok result) : P result ↔ P b ∨ ∃ x ∈ xs, q x := by
  induction xs generalizing b with
  | nil =>
    cases h
    simp
  | cons x xs ih =>
    rw [List.foldlM_cons] at h
    obtain ⟨b', hx, h⟩ := exists_of_bind_eq_ok h
    rw [ih (fun y hy => hstep y (List.mem_cons_of_mem _ hy)) h,
      hstep x List.mem_cons_self b b' hx]
    simp [or_assoc]

/-- The same of a fold without failures. -/
theorem foldl_iff {P : β → Prop} {q : α → Prop} {f : β → α → β} {xs : List α}
    (hstep : ∀ x ∈ xs, ∀ b, P (f b x) ↔ P b ∨ q x) (b : β) :
    P (xs.foldl f b) ↔ P b ∨ ∃ x ∈ xs, q x := by
  apply foldlM_iff (ε := Unit) (f := fun b x => pure (f b x))
  · intro x hx b b' hb'
    rw [← Except.ok.inj hb']
    exact hstep x hx b
  · exact List.foldlM_pure

/-- What every step of a fold keeps, its result has. -/
theorem of_foldlM_eq_ok {P : β → Prop} {f : β → α → Except ε β} {xs : List α}
    (hstep : ∀ x ∈ xs, ∀ b b', P b → f b x = .ok b' → P b') {b result : β} (hb : P b)
    (h : xs.foldlM f b = .ok result) : P result := by
  induction xs generalizing b with
  | nil =>
    cases h
    exact hb
  | cons x xs ih =>
    rw [List.foldlM_cons] at h
    obtain ⟨b', hx, h⟩ := exists_of_bind_eq_ok h
    have hb' := hstep x List.mem_cons_self b b' hb hx
    exact ih (fun y hy => hstep y (List.mem_cons_of_mem _ hy)) hb' h

/-- A traversal has results exactly if its steps have them, one after the other. -/
theorem mapM_eq_ok_iff {f : α → Except ε β} {xs : List α} {ys : List β} :
    xs.mapM f = .ok ys ↔ List.Forall₂ (fun x y => f x = .ok y) xs ys := by
  constructor
  · intro h
    induction xs generalizing ys with
    | nil =>
      cases h
      exact .nil
    | cons x xs ih =>
      rw [List.mapM_cons] at h
      obtain ⟨z, hx, h⟩ := exists_of_bind_eq_ok h
      obtain ⟨zs, hxs, h⟩ := exists_of_bind_eq_ok h
      obtain rfl : z :: zs = ys := Except.ok.inj h
      exact .cons hx (ih hxs)
  · intro h
    induction h with
    | nil => rfl
    | cons hx _ ih =>
      rw [List.mapM_cons, hx, ih]
      rfl

/-- Whatever stands in the second of two related lists is related to something in the first. -/
theorem exists_mem_of_forall₂ {r : α → β → Prop} {xs : List α} {ys : List β}
    (h : List.Forall₂ r xs ys) : ∀ y ∈ ys, ∃ x ∈ xs, r x y := by
  induction h with
  | nil => simp
  | cons hx _ ih =>
    intro y hy
    rcases List.mem_cons.mp hy with rfl | hy
    · exact ⟨_, List.mem_cons_self, hx⟩
    · obtain ⟨w, hw, hwy⟩ := ih y hy
      exact ⟨w, List.mem_cons_of_mem _ hw, hwy⟩

/-- Every result of a traversal is the result of one of its steps. -/
theorem exists_mem_of_mapM_eq_ok {f : α → Except ε β} {xs : List α} {ys : List β}
    (h : xs.mapM f = .ok ys) : ∀ y ∈ ys, ∃ x ∈ xs, f x = .ok y :=
  exists_mem_of_forall₂ (mapM_eq_ok_iff.mp h)

/-- What holds of a result exactly if it holds of the step, holds of all results exactly if it holds
of all steps. -/
theorem forall_mem_iff_of_mapM_eq_ok {p : α → Prop} {q : β → Prop} {f : α → Except ε β}
    {xs : List α} {ys : List β} (h : xs.mapM f = .ok ys)
    (hstep : ∀ x y, f x = .ok y → (q y ↔ p x)) : (∀ y ∈ ys, q y) ↔ ∀ x ∈ xs, p x := by
  induction mapM_eq_ok_iff.mp h with
  | nil => simp
  | cons hx hxs ih =>
    rw [List.forall_mem_cons, List.forall_mem_cons, hstep _ _ hx, ih (mapM_eq_ok_iff.mpr hxs)]

/-- And then it holds of some result exactly if it holds of some step. -/
theorem exists_mem_iff_of_mapM_eq_ok {p : α → Prop} {q : β → Prop} {f : α → Except ε β}
    {xs : List α} {ys : List β} (h : xs.mapM f = .ok ys)
    (hstep : ∀ x y, f x = .ok y → (q y ↔ p x)) : (∃ y ∈ ys, q y) ↔ ∃ x ∈ xs, p x := by
  have hnone := forall_mem_iff_of_mapM_eq_ok h fun x y hxy => not_congr (hstep x y hxy)
  simpa using not_congr hnone

/-- What every step tells about its result, the traversal tells about all of them in order. -/
theorem map_eq_map_of_mapM_eq_ok {γ : Type} {f : α → Except ε β} {g : β → γ} {k : α → γ}
    {xs : List α} {ys : List β} (h : xs.mapM f = .ok ys)
    (hstep : ∀ x y, f x = .ok y → g y = k x) : ys.map g = xs.map k := by
  induction mapM_eq_ok_iff.mp h with
  | nil => rfl
  | cons hx hxs ih =>
    rw [List.map_cons, List.map_cons, hstep _ _ hx, ih (mapM_eq_ok_iff.mpr hxs)]

/-- A traversal has one result for each element. -/
theorem length_of_mapM_eq_ok {f : α → Except ε β} {xs : List α} {ys : List β}
    (h : xs.mapM f = .ok ys) : ys.length = xs.length := by
  have hall : ys.map (fun _ => ()) = xs.map fun _ => () :=
    map_eq_map_of_mapM_eq_ok h fun _ _ _ => rfl
  have hlength := congrArg List.length hall
  rwa [List.length_map, List.length_map] at hlength

/-- A traversal whose results can be read off those of another. -/
theorem mapM_eq_ok_map {γ : Type} {f : α → Except ε β} {g : α → Except ε γ} {k : β → γ}
    {xs : List α} {ys : List β} (h : xs.mapM f = .ok ys)
    (hstep : ∀ x y, f x = .ok y → g x = .ok (k y)) : xs.mapM g = .ok (ys.map k) := by
  rw [mapM_eq_ok_iff, List.forall₂_map_right_iff]
  exact (mapM_eq_ok_iff.mp h).imp hstep

/-! ## Causes of failure -/

/-- A computation has a result or fails for a cause of a kind. -/
def FailsWith (P : ε → Prop) (r : Except ε α) : Prop :=
  ∀ e, r = .error e → P e

section FailsWith

variable {P : ε → Prop}

theorem failsWith_ok (a : α) : FailsWith P (.ok a) := by
  intro e he
  cases he

theorem Succeeds.failsWith {r : Except ε α} (h : Succeeds r) : FailsWith P r := by
  obtain ⟨a, rfl⟩ := h
  exact failsWith_ok a

theorem FailsWith.bind {r : Except ε α} {f : α → Except ε β} (hr : FailsWith P r)
    (hf : ∀ a, r = .ok a → FailsWith P (f a)) : FailsWith P (r >>= f) := by
  cases r with
  | error e =>
    rintro _ ⟨⟩
    exact hr e rfl
  | ok a => exact hf a rfl

theorem failsWith_mapM {f : α → Except ε β} {xs : List α} (h : ∀ x ∈ xs, FailsWith P (f x)) :
    FailsWith P (xs.mapM f) := by
  induction xs with
  | nil => exact failsWith_ok []
  | cons x xs ih =>
    rw [List.mapM_cons]
    refine (h x List.mem_cons_self).bind fun y _ => ?_
    refine (ih fun z hz => h z (List.mem_cons_of_mem _ hz)).bind fun ys _ => ?_
    exact failsWith_ok (y :: ys)

theorem failsWith_foldlM {f : β → α → Except ε β} {xs : List α}
    (h : ∀ b, ∀ x ∈ xs, FailsWith P (f b x)) (b : β) : FailsWith P (xs.foldlM f b) := by
  induction xs generalizing b with
  | nil => exact failsWith_ok b
  | cons x xs ih =>
    rw [List.foldlM_cons]
    exact (h b x List.mem_cons_self).bind fun b' _ =>
      ih (fun b y hy => h b y (List.mem_cons_of_mem _ hy)) b'

end FailsWith

/-! ## The same with more room -/

/-- A computation comes to the same as another one, or fails for a cause of a kind. -/
def SameUnless (P : ε → Prop) (r s : Except ε α) : Prop :=
  r = s ∨ ∃ e, r = .error e ∧ P e

namespace SameUnless

variable {P : ε → Prop} {r s : Except ε α}

theorem refl (r : Except ε α) : SameUnless P r r :=
  .inl rfl

theorem of_error {e : ε} (h : P e) : SameUnless P (.error e) s :=
  .inr ⟨e, rfl, h⟩

/-- A sequence, whose second part need only be the same for results of the first. -/
theorem bind (h : SameUnless P r s) {f g : α → Except ε β}
    (hf : ∀ a, SameUnless P (f a) (g a)) : SameUnless P (r >>= f) (s >>= g) := by
  rcases h with rfl | ⟨e, rfl, he⟩
  · cases r with
    | error e => exact refl _
    | ok a => exact hf a
  · exact of_error he

theorem mapError {δ : Type} {Q : δ → Prop} (h : SameUnless P r s) {g : ε → δ}
    (hg : ∀ e, P e → Q (g e)) : SameUnless Q (r.mapError g) (s.mapError g) := by
  rcases h with rfl | ⟨e, rfl, he⟩
  · exact refl _
  · exact of_error (hg e he)

theorem map (h : SameUnless P r s) (g : α → β) : SameUnless P (r.map g) (s.map g) :=
  h.bind fun a => refl (.ok (g a))

/-- A result is the result of the other computation as well. -/
theorem eq_ok (h : SameUnless P r s) {a : α} (hr : r = .ok a) : s = .ok a := by
  rcases h with rfl | ⟨e, rfl, -⟩
  · exact hr
  · cases hr

end SameUnless

end Schematic
