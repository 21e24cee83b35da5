import Schematic.Proofs.Yaml.Plain

/-!
# Short forms of intrinsic functions

A template calls an intrinsic function by a mapping with one key, which names the function. In YAML
the call may be written shorter: a tag with the name of the function stands on the argument itself.
Text, lists and mappings with a tag are different data, and each is expanded in a way of its own. All
three come to the mapping with one key, and the argument is expanded as it is without the tag, so a
template with all of its calls in short form, however deep they stand in each other, becomes the
template that it was written from.

## Main definitions

- `Value.isTemplate` — trees of text, lists and mappings
- `Datum.tagOf?`, `Datum.callTag?` — the tag that is the short form of a key, and of a call
- `Datum.spelled` — a template with tags for some of its calls
- `Datum.short`, `Datum.long` — a template with tags for all of its calls, and for none

## Main statements

- `Datum.longForm_of_tagOf?` — the key of a tag is the one that the tag is short for
- `Datum.toValue_withTag` — a tag on an argument becomes a call
- `Datum.toValue_short` — short forms become the template
-/

namespace Schematic

/-! ## Templates -/

namespace Value

mutual

/-- A tree of text, lists and mappings only. No key of a mapping comes twice. -/
def isTemplate : Value → Bool
  | str _ => true
  | list xs => areTemplates xs
  | map es => decide (Entries.keys es).Nodup && haveTemplates es
  | null | bool _ | int _ | float _ | bytes _ | set _ | pair _ _ => false
termination_by structural v => v

/-- Every item of a list is a template. -/
def areTemplates : List Value → Bool
  | [] => true
  | x :: xs => isTemplate x && areTemplates xs
termination_by structural xs => xs

/-- Every value of a mapping is a template. -/
def haveTemplates : List (String × Value) → Bool
  | [] => true
  | (_, v) :: es => isTemplate v && haveTemplates es
termination_by structural es => es

end

end Value

namespace Yaml.Datum

/-! ## Calls -/

/-- The name of a function whose key has a prefix of its own: it does not begin like a tag, and it is
none of the two names that are keys without the prefix. -/
def isFunctionName (name : List Char) : Bool :=
  name.head?.any (· != '!') && name != "Ref".toList && name != "Condition".toList

/-- The tag that is the short form of a key. -/
def tagOf? (key : String) : Option String :=
  if key = "Ref" ∨ key = "Condition" then some ("!" ++ key)
  else
    match key.toList with
    | 'F' :: 'n' :: ':' :: ':' :: name =>
      if isFunctionName name then some (String.ofList ('!' :: name)) else none
    | _ => none

mutual

/-- The tag of the call that a mapping is: it has one entry, with a key that has a short form and an
argument that a tag can stand on. -/
def callTag? : List (String × Value) → Option String
  | [(key, argument)] => if isArgument argument then tagOf? key else none
  | _ => none
termination_by structural es => es

/-- A tag can stand on text, on a list, and on a mapping that is no call itself. -/
def isArgument : Value → Bool
  | .str _ | .list _ => true
  | .map es => (callTag? es).isNone
  | _ => false
termination_by structural v => v

end

/-- A datum with a tag on it. -/
def withTag (tag : String) : Datum → Datum
  | text s => tagged tag s
  | list _ items => list (some tag) items
  | map _ es => map (some tag) es
  | d => d

/-- A mapping of data: its only value with a tag on it, if there is a tag. -/
def spelledMap : Option String → List (Datum × Datum) → Datum
  | some tag, [(_, argument)] => argument.withTag tag
  | _, es => map none es

section Spelled

variable (tag? : List (String × Value) → Option String)

mutual

/-- A template with the calls in short form that have a tag. -/
def spelled : Value → Datum
  | .str s => text s
  | .list xs => list none (spelledItems xs)
  | .map es => spelledMap (tag? es) (spelledEntries es)
  | _ => null
termination_by structural v => v

/-- The items of a list with the calls in short form that have a tag. -/
def spelledItems : List Value → List Datum
  | [] => []
  | x :: xs => spelled x :: spelledItems xs
termination_by structural xs => xs

/-- The entries of a mapping with the calls in short form that have a tag. -/
def spelledEntries : List (String × Value) → List (Datum × Datum)
  | [] => []
  | (key, v) :: es => (text key, spelled v) :: spelledEntries es
termination_by structural es => es

end

end Spelled

/-- A tag stands on calls only, and it is the tag of the call. -/
def TagsCalls (tag? : List (String × Value) → Option String) : Prop :=
  ∀ es tag, tag? es = some tag → callTag? es = some tag

/-- A template with every call in short form. -/
def short : Value → Datum :=
  spelled callTag?

/-- A template with every call in long form. -/
def long : Value → Datum :=
  spelled fun _ => none

/-! ## Tags -/

/-- One mark before a name that begins with none makes a local tag. -/
theorem isLocal_mark {name : List Char} (hname : name.head? ≠ some '!') :
    isLocal (String.ofList ('!' :: name)) = true := by
  rw [isLocal, String.toList_ofList]
  cases name with
  | nil => rfl
  | cons c rest =>
    have hc : c ≠ '!' := fun h => hname (congrArg some h)
    split
    · next heq => exact absurd (List.cons.inj (List.cons.inj heq).2).1 hc
    · rfl
    · next hother => exact absurd rfl (hother (c :: rest))

/-- And the mark is all that is taken off it. -/
theorem longForm_mark {name : List Char} (hname : name.head? ≠ some '!')
    (hRef : name ≠ "Ref".toList) (hCondition : name ≠ "Condition".toList) :
    longForm (String.ofList ('!' :: name)) = "Fn::" ++ String.ofList name := by
  have hdrop : ('!' :: name).dropWhile (· == '!') = name := by
    rw [List.dropWhile_cons_of_pos (by rfl)]
    cases name with
    | nil => rfl
    | cons c rest =>
      apply List.dropWhile_cons_of_neg
      simpa using hname
  have hne : ∀ word : String, name ≠ word.toList → String.ofList name ≠ word := by
    rintro word h rfl
    exact h String.toList_ofList.symm
  rw [longForm, String.toList_ofList, hdrop]
  simp [hne "Ref" hRef, hne "Condition" hCondition]

/-- The short form of a key is a local tag, and its long form is the key. -/
theorem longForm_of_tagOf? {key tag : String} (h : tagOf? key = some tag) :
    isLocal tag = true ∧ longForm tag = key := by
  rw [tagOf?] at h
  split at h
  -- Two names are keys as they stand.
  · next hkey =>
    obtain rfl := Option.some.inj h
    rcases hkey with rfl | rfl
    · decide
    · decide
  -- All others have the prefix, and they are neither of the two, so they get it back.
  · split at h
    · next name hlist =>
      split at h
      · next hfunction =>
        obtain rfl := Option.some.inj h
        simp only [isFunctionName, Bool.and_eq_true, bne_iff_ne] at hfunction
        obtain ⟨⟨hhead, hRef⟩, hCondition⟩ := hfunction
        have hname : name.head? ≠ some '!' := by
          intro hmark
          rw [hmark] at hhead
          cases hhead
        refine ⟨isLocal_mark hname, ?_⟩
        rw [longForm_mark hname hRef hCondition]
        apply String.toList_inj.mp
        simp [hlist]
      · cases h
    · cases h

/-! ## Calls become what they are short for -/

/-- A datum that a tag can be put on: text, or a list or mapping without a tag. -/
def isUntagged : Datum → Bool
  | text _ | list none _ | map none _ => true
  | _ => false

/-- A local tag that is put on a datum makes a call of its value. -/
theorem toValue_withTag {tag : String} (htag : isLocal tag = true) {d : Datum}
    (hd : d.isUntagged = true) {v : Value} (hv : d.toValue = .ok v) :
    (d.withTag tag).toValue = .ok (intrinsic tag v) := by
  cases d with
  | text s =>
    obtain rfl := Except.ok.inj hv
    rw [withTag, toValue, scalarTag, if_pos htag]
  | list tag? items =>
    obtain ⟨vs, hvs, rfl⟩ := exists_toValue_list hv
    cases tag? with
    | some other => cases hd
    | none =>
      rw [withTag, toValue]
      apply bind_eq_ok hvs
      rw [underTag, if_pos htag]
      rfl
  | map tag? es =>
    obtain ⟨pairs, hpairs, rfl⟩ := exists_toValue_map hv
    cases tag? with
    | some other => cases hd
    | none =>
      rw [withTag, toValue]
      apply bind_eq_ok hpairs
      rw [underTag, if_pos htag]
      rfl
  | _ => cases hd

/-- A mapping is a call if it has the tag of one. -/
theorem exists_of_callTag?_eq_some {es : List (String × Value)} {tag : String}
    (h : callTag? es = some tag) :
    ∃ key w, es = [(key, w)] ∧ isArgument w = true ∧ tagOf? key = some tag := by
  rcases es with _ | ⟨⟨key, w⟩, _ | ⟨e, es⟩⟩
  · cases h
  · rw [callTag?] at h
    split at h
    · next hw => exact ⟨key, w, rfl, hw, h⟩
    · cases h
  · cases h

/-! ## Templates become themselves -/

section Spelled

variable {tag? : List (String × Value) → Option String}

/-- An argument that a tag can stand on has none of its own, whichever calls have one. -/
theorem isUntagged_spelled (htag : TagsCalls tag?) {w : Value} (h : isArgument w = true) :
    (spelled tag? w).isUntagged = true := by
  cases w with
  | str s => rfl
  | list xs => rfl
  | map es =>
    -- The mapping is no call, so there is no tag for it.
    rw [isArgument, Option.isNone_iff_eq_none] at h
    have hnone : tag? es = none := by
      apply Option.eq_none_iff_forall_ne_some.mpr
      intro tag htagged
      rw [htag es tag htagged] at h
      cases h
    rw [spelled, hnone]
    rfl
  | _ => cases h

/-- A mapping becomes itself, as a call with a tag or with its key, if its entries do. -/
theorem toValue_spelledMap (htag : TagsCalls tag?) {es : List (String × Value)}
    (hentries : toEntries (spelledEntries tag? es) = .ok es)
    (hkeys : (Entries.keys es).Nodup) :
    (spelledMap (tag? es) (spelledEntries tag? es)).toValue = .ok (.map es) := by
  cases hcall : tag? es with
  | none =>
    have hlist := Entries.ofList_eq_self hkeys
    rw [spelledMap, toValue]
    · apply bind_eq_ok hentries
      rw [hlist]
      rfl
    · simp
  | some tag =>
    obtain ⟨key, w, rfl, hw, hkey⟩ := exists_of_callTag?_eq_some (htag es tag hcall)
    obtain ⟨hlocal, hlong⟩ := longForm_of_tagOf? hkey
    -- The argument is the value of the only entry.
    have hargument : (spelled tag? w).toValue = .ok w := by
      rw [spelledEntries, spelledEntries, toEntries] at hentries
      obtain ⟨_, -, hentries⟩ := exists_of_bind_eq_ok hentries
      obtain ⟨v, hv, hentries⟩ := exists_of_bind_eq_ok hentries
      obtain ⟨rest, -, hentries⟩ := exists_of_bind_eq_ok hentries
      obtain rfl : v = w := by
        injection Except.ok.inj hentries with hpair
        exact (Prod.mk.inj hpair).2
      exact hv
    have hcalled := toValue_withTag hlocal (isUntagged_spelled htag hw) hargument
    rw [intrinsic, hlong] at hcalled
    exact hcalled

mutual

/-- A template becomes itself again, whichever of its calls are in short form. -/
theorem toValue_spelled (htag : TagsCalls tag?) :
    ∀ {v : Value}, v.isTemplate = true → (spelled tag? v).toValue = .ok v
  | .str s, _ => rfl
  | .list xs, h => bind_eq_ok (toValues_spelledItems htag h) rfl
  | .map es, h => by
    rw [Value.isTemplate, Bool.and_eq_true, decide_eq_true_iff] at h
    exact toValue_spelledMap htag (toEntries_spelledEntries htag h.2) h.1

/-- So do the items of a list. -/
theorem toValues_spelledItems (htag : TagsCalls tag?) :
    ∀ {xs : List Value}, Value.areTemplates xs = true →
      toValues (spelledItems tag? xs) = .ok xs
  | [], _ => rfl
  | x :: xs, h => by
    rw [Value.areTemplates, Bool.and_eq_true] at h
    rw [spelledItems, toValues]
    apply bind_eq_ok (toValue_spelled htag h.1)
    exact bind_eq_ok (toValues_spelledItems htag h.2) rfl

/-- And so do the entries of a mapping, with the text of the keys. -/
theorem toEntries_spelledEntries (htag : TagsCalls tag?) :
    ∀ {es : List (String × Value)}, Value.haveTemplates es = true →
      toEntries (spelledEntries tag? es) = .ok es
  | [], _ => rfl
  | (key, v) :: es, h => by
    rw [Value.haveTemplates, Bool.and_eq_true] at h
    rw [spelledEntries, toEntries]
    apply bind_eq_ok (a := key) rfl
    apply bind_eq_ok (toValue_spelled htag h.1)
    exact bind_eq_ok (toEntries_spelledEntries htag h.2) rfl

end

end Spelled

/-- Short forms are expanded to the long forms. A template becomes itself again with all of its calls
in short form, as it does with none of them. -/
theorem toValue_short {v : Value} (h : v.isTemplate = true) :
    (short v).toValue = .ok v ∧ (long v).toValue = .ok v := by
  constructor
  · apply toValue_spelled _ h
    intro es tag htag
    exact htag
  · apply toValue_spelled _ h
    intro es tag htag
    cases htag

/-- Tags on text, on a list and on a mapping. A call of a call has the inner tag only. -/
theorem toValue_short_tags :
    ∃ v : Value, v.isTemplate = true ∧
      short v =
        map none
          [(text "Arn", tagged "!GetAtt" "Role.Arn"),
            (text "Name", list (some "!Join") [text "-", tagged "!Ref" "Stage"]),
            (text "Kept",
              map none [(text "Ref", map (some "!Condition") [(text "Of", text "Stage")])])] ∧
      (short v).toValue = .ok v ∧ (long v).toValue = .ok v := by
  refine ⟨.map
    [("Arn", .map [("Fn::GetAtt", .str "Role.Arn")]),
      ("Name", .map [("Fn::Join", .list [.str "-", .map [("Ref", .str "Stage")]])]),
      ("Kept", .map [("Ref", .map [("Condition", .map [("Of", .str "Stage")])])])], ?_, ?_, ?_⟩
  · decide
  · rfl
  · exact toValue_short (by decide)

end Yaml.Datum

end Schematic
