import Schematic.Proofs.Success
import Schematic.Proofs.Value.Plain
import Schematic.Yaml.Reader

/-!
# Which data become plain trees

Data become values one by one: dates become text, keys become text, and a tag becomes a mapping.
Byte strings, sets and pairs are left as they are, at any depth, so a datum becomes a plain tree
exactly if it holds none of them. An entry does not count if a later one has the same key text,
since it takes its place.

## Main definitions

- `Datum.isMapping` — a datum becomes a mapping
- `Datum.isPlain` — a datum holds no byte string, set or pair that stays

## Main statements

- `Datum.eq_null_of_toValue`, `Datum.isMap_toValue` — which data become nulls and mappings
- `Datum.isPlain_toValue_iff` — which data become plain trees
- `null_not_mem_of_read` — no document that is read is null
-/

namespace Schematic.Yaml

namespace Datum

/-! ## Nulls and mappings -/

/-- A tag makes a mapping of a collection if it is local. -/
def hasLocalTag (tag? : Option String) : Bool :=
  tag?.any isLocal

/-- A datum becomes a mapping: it is one, or a tag makes it one. -/
def isMapping : Datum → Bool
  | map _ _ | tagged _ _ => true
  | list tag? _ => hasLocalTag tag?
  | _ => false

theorem isMap_underTag (tag? : Option String) (v : Value) :
    (underTag tag? v).isMap = (hasLocalTag tag? || v.isMap) := by
  cases tag? with
  | none => rfl
  | some tag =>
    cases htag : isLocal tag <;> simp [underTag, hasLocalTag, htag, intrinsic, Value.isMap]

theorem underTag_ne_null (tag? : Option String) {v : Value} (h : v ≠ .null) :
    underTag tag? v ≠ .null := by
  cases tag? with
  | none => exact h
  | some tag => cases htag : isLocal tag <;> simp [underTag, htag, intrinsic, h]

theorem isPlain_underTag (tag? : Option String) (v : Value) :
    (underTag tag? v).isPlain = v.isPlain := by
  cases tag? with
  | none => rfl
  | some tag =>
    cases htag : isLocal tag <;>
      simp [underTag, htag, intrinsic, Value.isPlain, Value.haveAllPlain]

/-- What a collection becomes. -/
theorem exists_toValue_list {tag? : Option String} {items : List Datum} {v : Value}
    (h : (list tag? items).toValue = .ok v) :
    ∃ vs, toValues items = .ok vs ∧ v = underTag tag? (.list vs) := by
  rw [toValue] at h
  obtain ⟨vs, hvs, h⟩ := exists_of_bind_eq_ok h
  exact ⟨vs, hvs, (Except.ok.inj h).symm⟩

theorem exists_toValue_map {tag? : Option String} {es : List (Datum × Datum)} {v : Value}
    (h : (map tag? es).toValue = .ok v) :
    ∃ pairs, toEntries es = .ok pairs ∧ v = underTag tag? (.map (Entries.ofList pairs)) := by
  rw [toValue] at h
  obtain ⟨pairs, hpairs, h⟩ := exists_of_bind_eq_ok h
  exact ⟨pairs, hpairs, (Except.ok.inj h).symm⟩

theorem exists_toValue_set {ms : List Datum} {v : Value} (h : (set ms).toValue = .ok v) :
    ∃ vs, v = .set vs := by
  rw [toValue] at h
  obtain ⟨vs, -, h⟩ := exists_of_bind_eq_ok h
  exact ⟨vs, (Except.ok.inj h).symm⟩

theorem exists_toValue_pair {a b : Datum} {v : Value} (h : (pair a b).toValue = .ok v) :
    ∃ first second, v = .pair first second := by
  rw [toValue] at h
  obtain ⟨first, -, h⟩ := exists_of_bind_eq_ok h
  obtain ⟨second, -, h⟩ := exists_of_bind_eq_ok h
  exact ⟨first, second, (Except.ok.inj h).symm⟩

/-- A datum becomes a mapping if it is one or has a tag that makes it one. -/
theorem isMap_toValue {d : Datum} {v : Value} (h : d.toValue = .ok v) : v.isMap = d.isMapping := by
  cases d with
  | list tag? items =>
    obtain ⟨vs, -, rfl⟩ := exists_toValue_list h
    rw [isMap_underTag, isMapping]
    exact Bool.or_false _
  | map tag? es =>
    obtain ⟨pairs, -, rfl⟩ := exists_toValue_map h
    rw [isMap_underTag, isMapping]
    exact Bool.or_true _
  | set ms =>
    obtain ⟨vs, rfl⟩ := exists_toValue_set h
    rfl
  | pair a b =>
    obtain ⟨first, second, rfl⟩ := exists_toValue_pair h
    rfl
  | endless => cases h
  | _ =>
    obtain rfl := Except.ok.inj h
    rfl

/-- Only a null becomes a null. -/
theorem eq_null_of_toValue {d : Datum} (h : d.toValue = .ok .null) : d = .null := by
  cases d with
  | null => rfl
  | list tag? items =>
    obtain ⟨vs, -, heq⟩ := exists_toValue_list h
    exact absurd heq.symm (underTag_ne_null tag? (by simp))
  | map tag? es =>
    obtain ⟨pairs, -, heq⟩ := exists_toValue_map h
    exact absurd heq.symm (underTag_ne_null tag? (by simp))
  | set ms =>
    obtain ⟨vs, heq⟩ := exists_toValue_set h
    cases heq
  | pair a b =>
    obtain ⟨first, second, heq⟩ := exists_toValue_pair h
    cases heq
  | _ => cases h

/-! ## Plain data -/

/-- The text of a key, if it has one. -/
def keyText? (d : Datum) : Option String :=
  d.keyText.toOption

/-- A later entry has the same key text and takes the place of an entry with a key. -/
def isReplaced (key : Datum) (es : List (Datum × Datum)) : Bool :=
  es.any fun e => e.1.keyText? == key.keyText?

mutual

/-- A datum holds no byte string, set or pair, but in entries that are replaced. -/
def isPlain : Datum → Bool
  | null | bool _ _ | int _ | float _ | text _ | timestamp _ | tagged _ _ | endless => true
  | list _ items => areAllPlain items
  | map _ es => haveAllPlain es
  | bytes _ | set _ | pair _ _ => false
termination_by structural d => d

/-- Every item of a list is plain. -/
def areAllPlain : List Datum → Bool
  | [] => true
  | x :: xs => isPlain x && areAllPlain xs
termination_by structural xs => xs

/-- The value of every entry that is not replaced is plain. -/
def haveAllPlain : List (Datum × Datum) → Bool
  | [] => true
  | (k, v) :: es => (isReplaced k es || isPlain v) && haveAllPlain es
termination_by structural es => es

end

theorem exists_toValues_cons {x : Datum} {xs : List Datum} {vs : List Value}
    (h : toValues (x :: xs) = .ok vs) :
    ∃ v rest, x.toValue = .ok v ∧ toValues xs = .ok rest ∧ vs = v :: rest := by
  rw [toValues] at h
  obtain ⟨v, hv, h⟩ := exists_of_bind_eq_ok h
  obtain ⟨rest, hrest, h⟩ := exists_of_bind_eq_ok h
  exact ⟨v, rest, hv, hrest, (Except.ok.inj h).symm⟩

theorem exists_toEntries_cons {k d : Datum} {es : List (Datum × Datum)}
    {pairs : List (String × Value)} (h : toEntries ((k, d) :: es) = .ok pairs) :
    ∃ key v rest, k.keyText? = some key ∧ d.toValue = .ok v ∧ toEntries es = .ok rest ∧
      pairs = (key, v) :: rest := by
  rw [toEntries] at h
  obtain ⟨key, hkey, h⟩ := exists_of_bind_eq_ok h
  obtain ⟨v, hv, h⟩ := exists_of_bind_eq_ok h
  obtain ⟨rest, hrest, h⟩ := exists_of_bind_eq_ok h
  refine ⟨key, v, rest, ?_, hv, hrest, (Except.ok.inj h).symm⟩
  rw [keyText?, mapError_eq_ok_iff.mp hkey]
  rfl

/-- The keys of the pairs that entries become are their key texts. -/
theorem isReplaced_iff {key : Datum} {name : String} (hkey : key.keyText? = some name)
    {es : List (Datum × Datum)} {pairs : List (String × Value)} (h : toEntries es = .ok pairs) :
    isReplaced key es = true ↔ name ∈ Entries.keys pairs := by
  induction es generalizing pairs with
  | nil =>
    cases h
    simp [isReplaced, Entries.keys]
  | cons e es ih =>
    obtain ⟨k, d⟩ := e
    obtain ⟨other, v, rest, hother, -, hrest, rfl⟩ := exists_toEntries_cons h
    have hrest := ih hrest
    simp only [isReplaced, List.any_cons, Bool.or_eq_true, beq_iff_eq, Entries.keys, List.map_cons,
      List.mem_cons] at hrest ⊢
    rw [hrest, hkey, hother, Option.some.injEq, eq_comm]

mutual

/-- A datum becomes a plain tree exactly if it is plain. -/
theorem isPlain_toValue_iff : (d : Datum) → {v : Value} → d.toValue = .ok v →
    (v.isPlain = true ↔ d.isPlain = true)
  | null, _, h | bool _ _, _, h | int _, _, h | float _, _, h | text _, _, h | timestamp _, _, h
  | bytes _, _, h | tagged _ _, _, h => by
    obtain rfl := Except.ok.inj h
    rfl
  | list tag? items, v, h => by
    obtain ⟨vs, hvs, rfl⟩ := exists_toValue_list h
    rw [isPlain_underTag, Value.isPlain, isPlain]
    exact areAllPlain_toValues_iff items hvs
  | map tag? es, v, h => by
    -- The pairs are inserted one by one, so it is not all of them that stay.
    obtain ⟨pairs, hpairs, rfl⟩ := exists_toValue_map h
    rw [isPlain_underTag, Value.isPlain_map_iff, isPlain]
    exact haveAllPlain_toEntries_iff es hpairs
  | set ms, v, h => by
    obtain ⟨vs, rfl⟩ := exists_toValue_set h
    rfl
  | pair a b, v, h => by
    obtain ⟨first, second, rfl⟩ := exists_toValue_pair h
    rfl
  | endless, v, h => nomatch h
termination_by structural d => d

theorem areAllPlain_toValues_iff : (xs : List Datum) → {vs : List Value} →
    toValues xs = .ok vs → (Value.areAllPlain vs = true ↔ areAllPlain xs = true)
  | [], _, h => by
    cases h
    rfl
  | x :: xs, _, h => by
    obtain ⟨v, rest, hv, hrest, rfl⟩ := exists_toValues_cons h
    rw [Value.areAllPlain, areAllPlain, Bool.and_eq_true, Bool.and_eq_true,
      isPlain_toValue_iff x hv, areAllPlain_toValues_iff xs hrest]
termination_by structural xs => xs

theorem haveAllPlain_toEntries_iff : (es : List (Datum × Datum)) → {pairs : List (String × Value)} →
    toEntries es = .ok pairs →
      ((∀ e ∈ Entries.ofList pairs, e.2.isPlain = true) ↔ haveAllPlain es = true)
  | [], _, h => by
    cases h
    simp [Entries.ofList, haveAllPlain]
  | (k, d) :: es, _, h => by
    obtain ⟨key, v, rest, hkey, hv, hrest, rfl⟩ := exists_toEntries_cons h
    refine (Entries.forall_mem_ofList_cons_iff (P := fun w : Value => w.isPlain = true)).trans ?_
    rw [haveAllPlain, Bool.and_eq_true, Bool.or_eq_true, isReplaced_iff hkey hrest,
      isPlain_toValue_iff d hv, haveAllPlain_toEntries_iff es hrest]
termination_by structural es => es

end

end Datum

/-! ## Documents -/

theorem exists_data_of_read {limit : Nat} {cs : List Char} {values : List Value}
    (h : read limit cs = .ok values) :
    ∃ data, Reader.dataOfText limit cs = .ok data ∧
      (data.filter Reader.isPresent).mapM Datum.toValue = .ok values := by
  unfold read at h
  split at h
  · cases h
  · obtain ⟨data, hdata, h⟩ := exists_of_bind_eq_ok h
    refine ⟨data, hdata, ?_⟩
    dsimp only at h
    split at h
    · cases h
    · exact h

/-- Documents that are null are dropped, and no other becomes a null. -/
theorem null_not_mem_of_read {limit : Nat} {cs : List Char} {values : List Value}
    (h : read limit cs = .ok values) :
    Value.null ∉ values := by
  intro hmem
  obtain ⟨data, -, hvalues⟩ := exists_data_of_read h
  obtain ⟨d, hd, hnull⟩ := exists_mem_of_mapM_eq_ok hvalues _ hmem
  rw [Datum.eq_null_of_toValue hnull, List.mem_filter] at hd
  exact absurd hd.2 (by decide)

end Schematic.Yaml
