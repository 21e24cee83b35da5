/-!
# Entries in the order of insertion

Association lists with text keys. Inserting under a key that is present replaces its value and
keeps its place; a new key goes to the end.

## Main definitions

- `Entries` — the association lists
- `get?`, `insert`, `ofList`, `keys` — look-up, insertion, insertion one by one, the keys

## Main statements

- `get?_insert_self`, `get?_insert_of_ne`, `get?_ofList` — what is found after insertions
- `forall_mem_ofList_cons_iff` — what holds of all values, but of those that are replaced
-/

namespace Schematic

/-- Values under text keys, in the order of insertion. -/
abbrev Entries (α : Type) := List (String × α)

namespace Entries

variable {α : Type}

/-- The value under a key. -/
def get? (key : String) : Entries α → Option α
  | [] => none
  | (k, v) :: rest => if k = key then some v else get? key rest

/-- Put a value under a key: in its place if the key is present, at the end otherwise. -/
def insert (key : String) (value : α) : Entries α → Entries α
  | [] => [(key, value)]
  | (k, v) :: rest => if k = key then (k, value) :: rest else (k, v) :: insert key value rest

/-- Insert pairs one after the other. -/
def ofList (pairs : List (String × α)) : Entries α :=
  pairs.foldl (fun entries (key, value) => insert key value entries) []

def keys (entries : Entries α) : List String :=
  entries.map Prod.fst

def hasKey (key : String) (entries : Entries α) : Bool :=
  (get? key entries).isSome

/-! ## Look-up after insertion -/

@[simp] theorem get?_insert_self (key : String) (value : α) (entries : Entries α) :
    get? key (insert key value entries) = some value := by
  induction entries with
  | nil => simp [insert, get?]
  | cons entry rest ih =>
    obtain ⟨k, v⟩ := entry
    by_cases h : k = key <;> simp [insert, get?, h, ih]

theorem get?_insert_of_ne {key other : String} (h : other ≠ key) (value : α)
    (entries : Entries α) : get? other (insert key value entries) = get? other entries := by
  induction entries with
  | nil => simp [insert, get?, Ne.symm h]
  | cons entry rest ih =>
    obtain ⟨k, v⟩ := entry
    by_cases hk : k = key
    · subst hk
      simp [insert, get?, Ne.symm h]
    · by_cases ho : k = other
      · subst ho
        simp [insert, get?, hk]
      · simp [insert, get?, hk, ho, ih]

/-- What is found under a key is among the entries. -/
theorem mem_of_get?_eq_some {key : String} {value : α} {entries : Entries α}
    (h : get? key entries = some value) : (key, value) ∈ entries := by
  induction entries with
  | nil => simp [get?] at h
  | cons entry rest ih =>
    obtain ⟨k, v⟩ := entry
    rw [get?] at h
    split at h
    · next hk =>
      obtain rfl := Option.some.inj h
      exact hk ▸ List.mem_cons_self
    · exact List.mem_cons_of_mem _ (ih h)

theorem get?_append (key : String) (front back : Entries α) :
    get? key (front ++ back) = (get? key front).or (get? key back) := by
  induction front with
  | nil => rfl
  | cons entry rest ih =>
    obtain ⟨k, v⟩ := entry
    by_cases h : k = key <;> simp [get?, h, ih]

/-- Insertion under a new key appends it. -/
theorem insert_of_get?_eq_none {key : String} {entries : Entries α} (value : α)
    (h : get? key entries = none) : insert key value entries = entries ++ [(key, value)] := by
  induction entries with
  | nil => rfl
  | cons entry rest ih =>
    obtain ⟨k, v⟩ := entry
    by_cases hk : k = key
    · simp [get?, hk] at h
    · simp only [get?, hk, if_false] at h
      simp [insert, hk, ih h]

/-! ## What holds of all values -/

/-- What holds of all values still does when one is inserted of which it holds. -/
theorem forall_mem_insert {P : α → Prop} {entries : Entries α} (h : ∀ e ∈ entries, P e.2)
    {value : α} (hvalue : P value) (key : String) : ∀ e ∈ insert key value entries, P e.2 := by
  induction entries with
  | nil => simpa [insert] using hvalue
  | cons entry rest ih =>
    obtain ⟨k, v⟩ := entry
    rw [List.forall_mem_cons] at h
    rw [insert]
    split
    · exact List.forall_mem_cons.mpr ⟨hvalue, h.2⟩
    · exact List.forall_mem_cons.mpr ⟨h.1, ih h.2⟩

theorem forall_mem_ofList {P : α → Prop} {pairs : List (String × α)} (h : ∀ e ∈ pairs, P e.2) :
    ∀ e ∈ ofList pairs, P e.2 := by
  have hfold (entries : Entries α) (hentries : ∀ e ∈ entries, P e.2) : ∀ e ∈ pairs.foldl
      (fun entries (key, value) => insert key value entries) entries, P e.2 := by
    induction pairs generalizing entries with
    | nil => exact hentries
    | cons pair pairs ih =>
      rw [List.forall_mem_cons] at h
      exact ih h.2 _ (forall_mem_insert hentries h.1 pair.1)
  exact hfold [] (by simp)

/-! ## Keys that are new -/

theorem get?_eq_none_iff {key : String} {entries : Entries α} :
    get? key entries = none ↔ key ∉ keys entries := by
  induction entries with
  | nil => simp [get?, keys]
  | cons entry rest ih =>
    obtain ⟨k, v⟩ := entry
    simp only [keys, List.map_cons, List.mem_cons, not_or] at ih ⊢
    rw [get?]
    split
    · next hk => simp [hk]
    · next hk => simp [ih, Ne.symm hk]

theorem insert_of_not_mem {key : String} {entries : Entries α} (value : α)
    (h : key ∉ keys entries) : insert key value entries = entries ++ [(key, value)] :=
  insert_of_get?_eq_none value (get?_eq_none_iff.mpr h)

/-- Insertion of pairs with different new keys appends them. -/
theorem foldl_insert_of_nodup {pairs : Entries α} (entries : Entries α)
    (h : (keys (entries ++ pairs)).Nodup) :
    pairs.foldl (fun entries (key, value) => insert key value entries) entries =
      entries ++ pairs := by
  induction pairs generalizing entries with
  | nil => simp
  | cons pair pairs ih =>
    obtain ⟨key, value⟩ := pair
    have hsplit : entries ++ (key, value) :: pairs = entries ++ [(key, value)] ++ pairs := by simp
    have hnew : key ∉ keys entries := by
      rw [keys, List.map_append, List.nodup_append] at h
      exact fun hmem => h.2.2 key hmem key List.mem_cons_self rfl
    rw [hsplit] at h ⊢
    rw [List.foldl_cons]
    simp only [insert_of_not_mem value hnew]
    exact ih _ h

theorem ofList_eq_self {pairs : Entries α} (h : (keys pairs).Nodup) : ofList pairs = pairs :=
  foldl_insert_of_nodup [] h

/-! ## The last value of a key -/

/-- Insertion one by one keeps the last value of a key. -/
theorem get?_foldl_insert (key : String) (pairs : List (String × α)) (entries : Entries α) :
    get? key (pairs.foldl (fun entries (key, value) => insert key value entries) entries) =
      (get? key pairs.reverse).or (get? key entries) := by
  induction pairs generalizing entries with
  | nil => rfl
  | cons pair pairs ih =>
    obtain ⟨k, v⟩ := pair
    rw [List.foldl_cons, ih, List.reverse_cons, get?_append, Option.or_assoc]
    congr 1
    by_cases h : k = key
    · subst h
      simp [get?]
    · simp [get?, h, get?_insert_of_ne (Ne.symm h)]

theorem get?_ofList (key : String) (pairs : List (String × α)) :
    get? key (ofList pairs) = get? key pairs.reverse := by
  rw [ofList, get?_foldl_insert]
  exact Option.or_none

theorem mem_keys_insert_iff {key other : String} {value : α} {entries : Entries α} :
    other ∈ keys (insert key value entries) ↔ other = key ∨ other ∈ keys entries := by
  induction entries with
  | nil => simp [insert, keys]
  | cons entry rest ih =>
    obtain ⟨k, v⟩ := entry
    rw [insert]
    split
    · next h => simp [keys, h]
    · simp only [keys, List.map_cons, List.mem_cons] at ih ⊢
      rw [ih, or_left_comm]

theorem nodup_keys_insert {entries : Entries α} (h : (keys entries).Nodup) (key : String)
    (value : α) : (keys (insert key value entries)).Nodup := by
  induction entries with
  | nil => simp [insert, keys]
  | cons entry rest ih =>
    obtain ⟨k, v⟩ := entry
    rw [keys, List.map_cons, List.nodup_cons] at h
    rw [insert]
    split
    · next hk => exact List.nodup_cons.mpr ⟨hk ▸ h.1, h.2⟩
    · next hk =>
      refine List.nodup_cons.mpr ⟨fun hmem => ?_, ih h.2⟩
      rcases mem_keys_insert_iff.mp hmem with heq | hmem
      · exact hk heq
      · exact h.1 hmem

theorem nodup_keys_ofList (pairs : List (String × α)) : (keys (ofList pairs)).Nodup := by
  have hnil : (keys ([] : Entries α)).Nodup := List.nodup_nil
  apply List.foldlRecOn (motive := fun entries => (keys entries).Nodup) pairs _ hnil
  intro entries hentries pair _
  exact nodup_keys_insert hentries pair.1 pair.2

/-- Among entries with different keys, each is what is found under its key. -/
theorem get?_eq_some_iff {entries : Entries α} (h : (keys entries).Nodup) {key : String}
    {value : α} : get? key entries = some value ↔ (key, value) ∈ entries := by
  refine ⟨mem_of_get?_eq_some, fun hmem => ?_⟩
  induction entries with
  | nil => cases hmem
  | cons entry rest ih =>
    obtain ⟨k, v⟩ := entry
    rw [keys, List.map_cons, List.nodup_cons] at h
    rcases List.mem_cons.mp hmem with heq | hmem
    · obtain ⟨rfl, rfl⟩ := Prod.mk.inj heq
      simp [get?]
    · have hk : k ≠ key := by
        rintro rfl
        exact h.1 (List.mem_map.mpr ⟨_, hmem, rfl⟩)
      rw [get?, if_neg hk]
      exact ih h.2 hmem

/-- What holds of all entries holds of the first pair, unless its key comes again, and of the
entries that the other pairs make. -/
theorem forall_mem_ofList_cons_iff {P : α → Prop} {key : String} {value : α}
    {pairs : List (String × α)} : (∀ e ∈ ofList ((key, value) :: pairs), P e.2) ↔
      (key ∈ keys pairs ∨ P value) ∧ ∀ e ∈ ofList pairs, P e.2 := by
  have hlast (pairs : List (String × α)) : (∀ e ∈ ofList pairs, P e.2) ↔
      ∀ k v, get? k pairs.reverse = some v → P v := by
    simp only [Prod.forall, ← get?_eq_some_iff (nodup_keys_ofList pairs), get?_ofList]
  rw [hlast, hlast, List.reverse_cons]
  simp only [get?_append]
  constructor
  · intro h
    refine ⟨?_, fun k v hkv => h k v (by rw [hkv]; rfl)⟩
    by_cases hmem : key ∈ keys pairs
    · exact .inl hmem
    · have hnone : get? key pairs.reverse = none := by
        rw [get?_eq_none_iff, keys, List.map_reverse, List.mem_reverse]
        exact hmem
      exact .inr (h key value (by simp [hnone, get?]))
  · rintro ⟨hfirst, hrest⟩ k v hkv
    cases hget : get? k pairs.reverse with
    | some w =>
      rw [hget] at hkv
      exact hrest k v (hget.trans hkv)
    | none =>
      -- Only the first pair can be what is found, so its key does not come again.
      simp only [hget, Option.none_or, get?] at hkv
      split at hkv
      · next hk =>
        rw [get?_eq_none_iff, keys, List.map_reverse, List.mem_reverse, ← hk] at hget
        exact Option.some.inj hkv ▸ hfirst.resolve_left hget
      · cases hkv

/-! ## Entries made of keys -/

variable {ks : List String} {f g : String → α} {key : String}

theorem get?_map_of_mem (h : key ∈ ks) : get? key (ks.map fun k => (k, f k)) = some (f key) := by
  induction ks with
  | nil => cases h
  | cons k ks ih =>
    by_cases hk : k = key
    · simp [get?, hk]
    · rcases List.mem_cons.mp h with rfl | hmem
      · exact absurd rfl hk
      · simp [get?, hk, ih hmem]

theorem get?_map_of_not_mem (h : key ∉ ks) : get? key (ks.map fun k => (k, f k)) = none := by
  apply get?_eq_none_iff.mpr
  simpa [keys] using h

/-- Insertion under one of the keys changes what belongs to that key only. -/
theorem insert_map_of_mem (hks : ks.Nodup) (h : key ∈ ks) (hfg : ∀ k, k ≠ key → f k = g k) :
    insert key (g key) (ks.map fun k => (k, f k)) = ks.map fun k => (k, g k) := by
  induction ks with
  | nil => cases h
  | cons k ks ih =>
    obtain ⟨hnew, hks⟩ := List.nodup_cons.mp hks
    by_cases hk : k = key
    · subst hk
      have hrest : ks.map (fun k => (k, f k)) = ks.map fun k => (k, g k) := by
        refine List.map_congr_left fun k' hk' => ?_
        rw [hfg k' (by rintro rfl; exact hnew hk')]
      simp only [List.map_cons, insert, if_pos, hrest]
    · rcases List.mem_cons.mp h with rfl | hmem
      · exact absurd rfl hk
      · simp only [List.map_cons, insert, if_neg hk, ih hks hmem, hfg k hk]

/-- Insertion under a key that is none of them puts it behind them. -/
theorem insert_map_of_not_mem (h : key ∉ ks) (hfg : ∀ k, k ≠ key → f k = g k) :
    insert key (g key) (ks.map fun k => (k, f k)) = (ks ++ [key]).map fun k => (k, g k) := by
  have hold : ks.map (fun k => (k, f k)) = ks.map fun k => (k, g k) := by
    refine List.map_congr_left fun k hk => ?_
    rw [hfg k (by rintro rfl; exact h hk)]
  rw [insert_of_get?_eq_none _ (get?_map_of_not_mem h), hold, List.map_append]
  rfl

end Entries

end Schematic
