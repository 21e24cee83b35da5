import Schematic.Proofs.Hcl.Resource
import Schematic.Proofs.Number.Reading
import Schematic.Proofs.Success
import Schematic.Proofs.Text.Search

/-!
# Reading written values

Every value that is written is read as what it stands for. Names, numbers and references are made
of characters that are no blanks, quotes or braces, so trimming, cutting into lines and looking for
comments leaves them whole.

## Main statements

- `Expr.scalar_chars` — a written value is read as what it stands for
- `listItems_addressList` — so are the addresses of a list
-/

namespace Schematic.Hcl

/-! ## Characters of names -/

theorem isPlain_of_isReferenceRest {c : Char} (h : isReferenceRest c = true) :
    isPlain c = true :=
  isPlain_of_class h (by decide)

theorem isBlank_eq_false_of_isReferenceRest {c : Char} (h : isReferenceRest c = true) :
    Text.isBlank c = false := by
  simp only [isReferenceRest, Bool.or_eq_true, beq_iff_eq] at h
  rcases h with ((((h | rfl) | rfl) | rfl) | rfl) | rfl
  · exact Text.isBlank_eq_false_of_isWord h
  all_goals decide

theorem isReferenceRest_of_isIdentRest {c : Char} (h : Text.isIdentRest c = true) :
    isReferenceRest c = true := by
  simp only [Text.isIdentRest, isReferenceRest, Bool.or_eq_true] at h ⊢
  rcases h with h | h
  · exact .inl (.inl (.inl (.inl (.inl h))))
  · exact .inr h

theorem Identifier.isIdentRest_chars (name : Identifier) :
    ∀ c ∈ name.chars, Text.isIdentRest c = true := by
  intro c hc
  rcases List.mem_cons.mp hc with rfl | hc
  · exact Text.isIdentRest_of_isIdentStart name.isIdentStart_first
  · exact name.isIdentRest_rest c hc

/-- The characters of an address. -/
theorem Address.mem_chars {address : Address} {c : Char} (hc : c ∈ address.chars) :
    Text.isIdentRest c = true ∨ c = '.' := by
  rcases List.mem_append.mp hc with hc | hc
  · exact .inl (address.head.isIdentRest_chars c hc)
  · obtain ⟨part, hpart, hc⟩ := List.mem_flatMap.mp hc
    rcases List.mem_cons.mp hc with rfl | hc
    · exact .inr rfl
    · exact .inl (address.isIdentRest_parts part hpart c hc)

theorem Address.isReferenceRest_chars (address : Address) :
    ∀ c ∈ address.chars, isReferenceRest c = true := by
  intro c hc
  rcases address.mem_chars hc with h | rfl
  · exact isReferenceRest_of_isIdentRest h
  · decide

/-- An address is a reference with a dot in it. -/
theorem Address.isReference_chars (address : Address) : isReference address.chars = true := by
  have hrest := address.isReferenceRest_chars
  have hsplit : address.chars = address.head.first ::
      (address.head.rest ++ address.parts.flatMap ('.' :: ·)) := rfl
  rw [hsplit] at hrest ⊢
  rw [isReference, address.head.isIdentStart_first, Bool.true_and, List.all_eq_true]
  exact fun c hc => hrest c (List.mem_cons_of_mem _ hc)

theorem Address.point_mem_chars (address : Address) : '.' ∈ address.chars := by
  obtain ⟨part, parts, hparts⟩ := List.exists_cons_of_ne_nil address.parts_ne_nil
  simp [Address.chars, hparts]

/-! ## Single values -/

theorem isQuotable_of_isLineText {cs : List Char} (h : IsLineText cs) : IsQuotable cs := by
  intro c hc
  obtain ⟨hquote, hescape, hbreak⟩ := h c hc
  refine ⟨hquote, hescape, ?_⟩
  rintro rfl
  exact absurd hbreak (by decide)

/-- Nothing in quotes ends the line. -/
theorem isLineBreak_inQuotes {cs : List Char} (h : IsLineText cs) :
    ∀ c ∈ inQuotes cs, Text.isLineBreak c = false := by
  rw [inQuotes, List.cons_append, List.forall_mem_cons, List.forall_mem_append,
    List.forall_mem_singleton]
  exact ⟨by decide, fun c hc => (h c hc).2.2, by decide⟩

theorem unquoteRest_append {cs : List Char} (h : IsLineText cs) :
    unquoteRest (cs ++ ['"']) = some cs := by
  induction cs with
  | nil => rfl
  | cons c cs ih =>
    obtain ⟨hquote, hescape, hfeed⟩ := isQuotable_of_isLineText h c List.mem_cons_self
    rw [List.cons_append, unquoteRest, ih fun d hd => h d (List.mem_cons_of_mem _ hd)]
    · simp [hfeed, hescape]
    all_goals simp [hquote, hescape]

theorem unquote?_inQuotes {cs : List Char} (h : IsLineText cs) :
    unquote? (inQuotes cs) = some cs :=
  unquoteRest_append h

/-- The blanks of a text in quotes stand within these. -/
theorem trim_inQuotes (cs : List Char) : Text.trim (inQuotes cs) = inQuotes cs := by
  apply Text.trim_eq_self
  · intro c hc
    obtain rfl := Option.some.inj hc
    decide
  · intro c hc
    rw [inQuotes, List.getLast?_concat] at hc
    obtain rfl := Option.some.inj hc
    decide

/-- What begins with no digit, sign or point is no number. -/
theorem isNumber_eq_false {c : Char} {rest : List Char}
    (hdigit : Text.isDecimalDigit c = false) (hminus : c ≠ '-') (hpoint : c ≠ '.') :
    isNumber (c :: rest) = false := by
  unfold isNumber
  split
  · next heq => exact absurd (List.cons.inj heq).1 hminus
  · simp [hdigit, hpoint]

theorem isNumber_digits {digits : List Char} (hne : digits ≠ [])
    (h : ∀ c ∈ digits, Text.isDecimalDigit c = true) (negative : Bool) :
    isNumber ((if negative then ['-'] else []) ++ digits) = true := by
  have htake : digits.takeWhile Text.isDecimalDigit = digits := by
    simpa using @List.takeWhile_append_of_pos _ _ _ [] h
  have hdrop : digits.dropWhile Text.isDecimalDigit = [] := by
    simpa using @List.dropWhile_append_of_pos _ _ _ [] h
  cases negative with
  | true => simp [isNumber, htake, hdrop, hne]
  | false =>
    obtain ⟨c, digits, rfl⟩ := List.exists_cons_of_ne_nil hne
    have hminus : c ≠ '-' := by
      rintro rfl
      exact absurd (h '-' List.mem_cons_self) (by decide)
    unfold isNumber
    split
    · next heq => exact absurd (List.cons.inj heq).1 hminus
    · simp only [if_neg (by decide : ¬false = true), List.nil_append, htake, hdrop]
      rfl

/-- A list is no single value. -/
theorem scalar_bracket (cs : List Char) : scalar ('[' :: cs) = .ok none := by
  have hnumber : isNumber ('[' :: cs) = false :=
    isNumber_eq_false (by decide) (by decide) (by decide)
  simp [scalar, unquote?, hnumber, isReference, Text.isIdentStart]

/-- No text in quotes is made of such characters. -/
theorem unquote?_eq_none {cs : List Char} (h : ∀ c ∈ cs, isReferenceRest c = true) :
    unquote? cs = none := by
  unfold unquote?
  split
  · exact absurd (h '"' List.mem_cons_self) (by decide)
  · rfl

/-- The characters of an integer. -/
theorem isDigit_of_mem_toString {n : Int} {c : Char} (h : c ∈ (toString n).toList) :
    c.isDigit = true ∨ c = '-' := by
  rw [toString_eq_ofList, String.toList_ofList] at h
  rcases List.mem_append.mp h with h | h
  · split at h
    · exact .inr (List.mem_singleton.mp h)
    · cases h
  · exact .inl (Nat.isDigit_of_mem_toDigits (by decide) (by decide) h)

theorem isReferenceRest_of_mem_toString {n : Int} {c : Char} (h : c ∈ (toString n).toList) :
    isReferenceRest c = true := by
  rcases isDigit_of_mem_toString h with h | rfl
  · have hascii : c.toNat < 0x80 := by
      have hupper : c.toNat ≤ 0x39 := (Char.isDigit_iff_toNat.mp h).2
      omega
    simp [isReferenceRest, Text.isWord, hascii, Char.isAlphanum, h]
  · decide

/-- A written integer is read as that integer. -/
theorem scalar_toString {n : Int} (hn : n.natAbs < Nat.pow 10 digitLimit) :
    scalar (toString n).toList = .ok (some (.int n)) := by
  have hquote : unquote? (toString n).toList = none :=
    unquote?_eq_none fun c => isReferenceRest_of_mem_toString
  have hnumber : isNumber (toString n).toList = true := by
    have htext : (toString n).toList =
        (if decide (n < 0) then ['-'] else []) ++ Nat.toDigits 10 n.natAbs := by
      rw [toString_eq_ofList, String.toList_ofList]
      simp
    rw [htext]
    exact isNumber_digits Nat.toDigits_ne_nil (fun c => isDecimalDigit_of_mem_toDigits) _
  have hpoint : ¬(toString n).toList.contains '.' = true := by
    rw [List.contains_iff_mem]
    intro h
    rcases isDigit_of_mem_toString h with h | h <;> exact absurd h (by decide)
  -- Neither of the two constants is a number.
  have hconstant {word : List Char} (hword : isNumber word = false) :
      (toString n).toList ≠ word := by
    rintro rfl
    rw [hword] at hnumber
    cases hnumber
  have htrue : (toString n).toList ≠ "true".toList := hconstant (by decide)
  have hfalse : (toString n).toList ≠ "false".toList := hconstant (by decide)
  rw [scalar, hquote]
  simp only [if_neg htrue, if_neg hfalse, if_pos hnumber, if_neg hpoint, String.ofList_toList,
    readInt_toString hn]
  rfl

/-- A written address is read as the interpolation of it. -/
theorem scalar_address (address : Address) : scalar address.chars =
    .ok (some (.str (String.ofList ('$' :: '{' :: address.chars ++ ['}'])))) := by
  have hpoint := address.point_mem_chars
  -- A name starts with no digit of any script: its first character is of ASCII.
  have hnumber : isNumber address.chars = false := by
    have hstart := address.head.isIdentStart_first
    apply isNumber_eq_false
    · rw [Text.isDecimalDigit_of_ascii (Text.toNat_lt_of_isIdentStart hstart)]
      exact Text.isDigit_eq_false_of_isIdentStart hstart
    · rintro heq
      exact absurd (heq ▸ hstart) (by decide)
    · rintro heq
      exact absurd (heq ▸ hstart) (by decide)
  -- Neither of the two constants has a dot in it.
  have hconstant {word : List Char} (hword : '.' ∉ word) : address.chars ≠ word := by
    rintro rfl
    exact hword hpoint
  have htrue : address.chars ≠ "true".toList := hconstant (by decide)
  have hfalse : address.chars ≠ "false".toList := hconstant (by decide)
  rw [scalar, unquote?_eq_none address.isReferenceRest_chars]
  simp only [if_neg htrue, if_neg hfalse, hnumber, address.isReference_chars,
    List.contains_iff_mem.mpr hpoint]
  rfl

namespace Expr

/-- A written value is read as what it stands for. -/
theorem scalar_chars (e : Expr) : scalar e.chars = .ok (some e.value) := by
  cases e with
  | text cs h => rw [chars, scalar, unquote?_inQuotes h, value]
  | bool b => cases b <;> rfl
  | int n h => exact scalar_toString h
  | reference address => exact scalar_address address

/-- A value is a text in quotes or made of such characters. -/
theorem chars_cases (e : Expr) :
    (∃ cs, IsLineText cs ∧ e.chars = inQuotes cs) ∨ ∀ c ∈ e.chars, isReferenceRest c = true := by
  cases e with
  | text cs h => exact .inl ⟨cs, h, rfl⟩
  | bool b => cases b <;> exact .inr (by decide)
  | int n h => exact .inr fun c => isReferenceRest_of_mem_toString
  | reference address => exact .inr address.isReferenceRest_chars

end Expr

/-! ## Lists of addresses -/

theorem trim_address (address : Address) : Text.trim address.chars = address.chars :=
  Text.trim_of_forall fun c hc =>
    isBlank_eq_false_of_isReferenceRest (address.isReferenceRest_chars c hc)

/-- A blank behind a separator is trimmed off. -/
theorem map_trim_splitAtChar_blank (cs : List Char) :
    (Text.splitAtChar ',' (' ' :: cs)).map Text.trim =
      (Text.splitAtChar ',' cs).map Text.trim := by
  obtain ⟨piece, more, hpieces⟩ := List.exists_cons_of_ne_nil (Text.splitAtChar_ne_nil ',' cs)
  rw [Text.splitAtChar, if_neg (by decide), hpieces]
  rfl

theorem Address.comma_not_mem_chars (address : Address) : ',' ∉ address.chars :=
  fun h => absurd (address.isReferenceRest_chars ',' h) (by decide)

theorem addressList_singleton (address : Address) : addressList [address] = address.chars := by
  simp [addressList]

theorem addressList_cons_cons (first second : Address) (addresses : List Address) :
    addressList (first :: second :: addresses) =
      first.chars ++ ',' :: ' ' :: addressList (second :: addresses) := by
  simp [addressList]

/-- The characters of a list of addresses. -/
theorem mem_addressList {addresses : List Address} {c : Char} (hc : c ∈ addressList addresses) :
    Text.isIdentRest c = true ∨ c = '.' ∨ c = ',' ∨ c = ' ' := by
  have haddress {address : Address} (hc : c ∈ address.chars) :
      Text.isIdentRest c = true ∨ c = '.' ∨ c = ',' ∨ c = ' ' :=
    (address.mem_chars hc).imp_right .inl
  induction addresses with
  | nil => cases hc
  | cons first addresses ih =>
    cases addresses with
    | nil =>
      rw [addressList_singleton] at hc
      exact haddress hc
    | cons second addresses =>
      rw [addressList_cons_cons] at hc
      rcases List.mem_append.mp hc with hc | hc
      · exact haddress hc
      · rcases List.mem_cons.mp hc with rfl | hc
        · exact .inr (.inr (.inl rfl))
        · rcases List.mem_cons.mp hc with rfl | hc
          · exact .inr (.inr (.inr rfl))
          · exact ih hc

theorem bracket_not_mem_addressList (addresses : List Address) : ']' ∉ addressList addresses := by
  intro hc
  rcases mem_addressList hc with h | h | h | h <;> exact absurd h (by decide)

/-- The pieces of a written list are its addresses. -/
theorem map_trim_splitAtChar_addressList {addresses : List Address} (hne : addresses ≠ []) :
    (Text.splitAtChar ',' (addressList addresses)).map Text.trim =
      addresses.map Address.chars := by
  induction addresses with
  | nil => exact absurd rfl hne
  | cons first addresses ih =>
    cases addresses with
    | nil =>
      rw [addressList_singleton, Text.splitAtChar_of_not_mem first.comma_not_mem_chars]
      simp [trim_address]
    | cons second addresses =>
      rw [addressList_cons_cons, Text.splitAtChar_append first.comma_not_mem_chars, List.map_cons,
        map_trim_splitAtChar_blank, ih (by simp), trim_address]
      rfl

theorem listItem_address (address : Address) :
    listItem true address.chars = .ok (some (.str (String.ofList address.chars))) := by
  have hne : address.chars.isEmpty = false := rfl
  rw [listItem, if_neg (by simp [hne]), address.isReference_chars]
  rfl

/-- The items of a written list of addresses. -/
theorem listItems_addressList (addresses : List Address) :
    listItems true (addressList addresses) =
      .ok (addresses.map fun address => .str (String.ofList address.chars)) := by
  cases addresses with
  | nil => rfl
  | cons first addresses =>
    have hpieces := @map_trim_splitAtChar_addressList (first :: addresses) (by simp)
    have hitems : ∀ piece ∈ Text.splitAtChar ',' (addressList (first :: addresses)),
        listItem true (Text.trim piece) =
          .ok (some (.str (String.ofList (Text.trim piece)))) := by
      intro piece hpiece
      have htrim := List.mem_map_of_mem (f := Text.trim) hpiece
      rw [hpieces] at htrim
      -- Whatever blanks a piece has, trimmed it is one of the addresses.
      obtain ⟨address, -, haddress⟩ := List.mem_map.mp htrim
      rw [← haddress, listItem_address]
    have hvalues := congrArg (List.map fun cs => Value.str (String.ofList cs)) hpieces
    rw [List.map_map, List.map_map] at hvalues
    rw [listItems, mapM_eq_ok hitems]
    show Except.ok (List.filterMap id _) = _
    rw [List.filterMap_map]
    exact congrArg Except.ok (by simpa [Function.comp_def] using hvalues)

end Schematic.Hcl
