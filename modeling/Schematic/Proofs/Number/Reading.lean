import Schematic.Number.Reading

/-!
# Reading what is written in digits

A text of decimal digits, perhaps behind a minus, is an integer, as long as it has no more digits
than are read. Digits around a point are a decimal number without any limit. No digit is a blank,
a sign or an underscore, so none of what the readers do about these gets in the way.

## Main definitions

- `Text.digitValues` — the values of digits

## Main statements

- `readInt_digits`, `readInt_minus_digits` — the integer that digits stand for
- `exists_readDecimal_eq_ok` — digits around a point are a number
- `Reading.ofDigits_lt` — digits stand for a number below the power of their count
- `readInt_toString` — an integer that can be written is read back
-/

namespace Schematic

namespace Text

/-! ## Decimal digits -/

/-- The values of the digits among characters. -/
def digitValues (cs : List Char) : List Nat :=
  cs.filterMap digitValue?

theorem digitValues_cons {c : Char} {d : Nat} (h : digitValue? c = some d) (cs : List Char) :
    digitValues (c :: cs) = d :: digitValues cs :=
  List.filterMap_cons_some h

/-- The value of a digit is below ten. -/
theorem digitValue?_lt {c : Char} {d : Nat} (h : digitValue? c = some d) : d < 10 := by
  unfold digitValue? at h
  simp only at h
  split at h
  · split at h
    · next hdigit =>
      obtain rfl := Option.some.inj h
      have hupper : c.toNat ≤ 0x39 := (Char.isDigit_iff_toNat.mp hdigit).2
      omega
    · cases h
  · obtain ⟨base, hbase, rfl⟩ := Option.map_eq_some_iff.mp h
    have := Array.find?_some hbase
    simp only [Bool.and_eq_true, decide_eq_true_eq] at this
    omega

theorem lt_of_mem_digitValues {cs : List Char} {d : Nat} (h : d ∈ digitValues cs) : d < 10 := by
  obtain ⟨c, -, hc⟩ := List.mem_filterMap.mp h
  exact digitValue?_lt hc

theorem length_digitValues {cs : List Char} (h : ∀ c ∈ cs, isDecimalDigit c = true) :
    (digitValues cs).length = cs.length := by
  induction cs with
  | nil => rfl
  | cons c cs ih =>
    obtain ⟨d, hd⟩ := Option.isSome_iff_exists.mp (h c List.mem_cons_self)
    have hcs := ih fun b hb => h b (List.mem_cons_of_mem _ hb)
    rw [digitValues_cons hd, List.length_cons, hcs, List.length_cons]

theorem isEmpty_digitValues {cs : List Char} (hne : cs ≠ [])
    (h : ∀ c ∈ cs, isDecimalDigit c = true) : (digitValues cs).isEmpty = false := by
  rw [List.isEmpty_eq_false_iff, ← List.length_pos_iff, length_digitValues h]
  exact List.length_pos_iff.mpr hne

/-- Where the blanks lie that are no ASCII characters: apart from the digits of every script. -/
private theorem no_blank_in_zeros : ∀ base ∈ zeros.toList, ∀ k < 10,
    0x85 < base + k ∧ base + k ≠ 0xA0 ∧ base + k ≠ 0x1680 ∧
      (base + k < 0x2000 ∨ 0x205F < base + k) ∧ base + k ≠ 0x3000 := by
  decide +kernel

theorem isBlank_eq_false_of_isDecimalDigit {c : Char} (h : isDecimalDigit c = true) :
    isBlank c = false := by
  unfold isDecimalDigit digitValue? at h
  simp only at h
  split at h
  · split at h
    · next hdigit =>
      have hlower : 0x30 ≤ c.toNat := (Char.isDigit_iff_toNat.mp hdigit).1
      have hupper : c.toNat ≤ 0x39 := (Char.isDigit_iff_toNat.mp hdigit).2
      simp [isBlank]
      omega
    · cases h
  -- A digit of another script lies in a range behind its zero, and there are no blanks there.
  · rw [Option.isSome_map] at h
    obtain ⟨base, hbase⟩ := Option.isSome_iff_exists.mp h
    have hrange := Array.find?_some hbase
    simp only [Bool.and_eq_true, decide_eq_true_eq] at hrange
    have hmem := Array.mem_toList_iff.mpr (Array.mem_of_find?_eq_some hbase)
    have := no_blank_in_zeros base hmem (c.toNat - base) (by omega)
    rw [Nat.add_sub_cancel' hrange.1] at this
    simp [isBlank]
    omega

end Text

open Text

namespace Reading

/-! ## Readers on digits -/

theorem baseDigit?_ten {c : Char} {d : Nat} (h : digitValue? c = some d) :
    baseDigit? 10 c = some d := by
  simp [baseDigit?, h, digitValue?_lt h]

/-- A digit run takes all digits in front of what begins with none. -/
theorem digitRun?_append {cs rest : List Char} (hcs : ∀ c ∈ cs, isDecimalDigit c = true)
    (hrest : digitRun? 10 rest = some ([], rest)) :
    digitRun? 10 (cs ++ rest) = some (digitValues cs, rest) := by
  induction cs with
  | nil => exact hrest
  | cons c cs ih =>
    have hc := hcs c List.mem_cons_self
    obtain ⟨d, hd⟩ := Option.isSome_iff_exists.mp hc
    -- An underscore between digits would be passed over, but it is no digit.
    have hmark : c ≠ '_' := by
      rintro rfl
      exact absurd hc (by decide)
    rw [List.cons_append, digitRun?, baseDigit?_ten hd]
    · rw [ih fun b hb => hcs b (List.mem_cons_of_mem _ hb), digitValues_cons hd]
      rfl
    · exact fun _ _ h => absurd h hmark
    · exact fun h => absurd h hmark

theorem number?_append {cs rest : List Char} (hne : cs ≠ [])
    (hcs : ∀ c ∈ cs, isDecimalDigit c = true) (hrest : digitRun? 10 rest = some ([], rest)) :
    number? 10 (cs ++ rest) = some (digitValues cs, rest) := by
  obtain ⟨c, cs, rfl⟩ := List.exists_cons_of_ne_nil hne
  have hmark : c ≠ '_' := by
    rintro rfl
    exact absurd (hcs '_' List.mem_cons_self) (by decide)
  have hsome := isEmpty_digitValues hne hcs
  rw [number?, digitRun?_append hcs hrest, Option.filter_some]
  · simp [hsome]
  · intro tail h
    exact hmark (List.cons.inj h).1

theorem number?_digits {cs : List Char} (hne : cs ≠ [])
    (hcs : ∀ c ∈ cs, isDecimalDigit c = true) :
    number? 10 cs = some (digitValues cs, []) := by
  simpa using @number?_append cs [] hne hcs rfl

/-- No digit is a sign. -/
theorem sign_append {cs rest : List Char} (hne : cs ≠ [])
    (hcs : ∀ c ∈ cs, isDecimalDigit c = true) : sign (cs ++ rest) = (false, cs ++ rest) := by
  obtain ⟨c, cs, rfl⟩ := List.exists_cons_of_ne_nil hne
  have hc := hcs c List.mem_cons_self
  rw [List.cons_append, sign]
  · intro tail h
    obtain ⟨rfl, -⟩ := List.cons.inj h
    exact absurd hc (by decide)
  · intro tail h
    obtain ⟨rfl, -⟩ := List.cons.inj h
    exact absurd hc (by decide)

theorem sign_digits {cs : List Char} (hne : cs ≠ [])
    (hcs : ∀ c ∈ cs, isDecimalDigit c = true) : sign cs = (false, cs) := by
  simpa using @sign_append cs [] hne hcs

/-- Nothing is taken off a text without blanks. -/
theorem trimPadding_eq_self {cs : List Char} (h : ∀ c ∈ cs, isBlank c = false) :
    trimPadding cs = cs := by
  have hpadding (ds : List Char) (hds : ∀ c ∈ ds, isBlank c = false) :
      ds.dropWhile isPadding = ds := by
    cases ds with
    | nil => rfl
    | cons d ds =>
      exact List.dropWhile_cons_of_neg (by simp [isPadding, hds d List.mem_cons_self])
  rw [trimPadding, hpadding cs h, hpadding cs.reverse fun c hc => h c (List.mem_reverse.mp hc),
    List.reverse_reverse]

/-- Numbers in base ten have no mark of their base. -/
theorem dropBaseMark_ten (cs : List Char) : dropBaseMark 10 cs = cs := by
  unfold dropBaseMark
  split
  · simp [basePrefix?]
  · rfl

/-! ## The number of digits -/

/-- Digits stand for a number below the power of their count. -/
theorem ofDigits_lt {ds : List Nat} (h : ∀ d ∈ ds, d < 10) :
    ofDigits 10 ds < Nat.pow 10 ds.length := by
  -- With digits that were read before, each further digit makes the bound ten times as large.
  have go (n : Nat) : ds.foldl (fun n d => n * 10 + d) n < (n + 1) * 10 ^ ds.length := by
    induction ds generalizing n with
    | nil => simp
    | cons d ds ih =>
      have hd := h d List.mem_cons_self
      calc (d :: ds).foldl (fun n d => n * 10 + d) n
          < (n * 10 + d + 1) * 10 ^ ds.length :=
            ih (fun e he => h e (List.mem_cons_of_mem _ he)) (n * 10 + d)
        _ ≤ ((n + 1) * 10) * 10 ^ ds.length := Nat.mul_le_mul_right _ (by omega)
        _ = (n + 1) * 10 ^ (d :: ds).length := by
            rw [List.length_cons, Nat.pow_succ', Nat.mul_assoc]
  simpa [ofDigits] using go 0

end Reading

open Reading

/-! ## Integers -/

variable {cs : List Char}

/-- Digits, no more than are read, are an integer. -/
theorem readInt_digits (hne : cs ≠ []) (hcs : ∀ c ∈ cs, isDecimalDigit c = true)
    (hlength : cs.length ≤ digitLimit) :
    readInt 10 (String.ofList cs) = .ok (ofDigits 10 (digitValues cs)) := by
  have htrim : trimPadding cs = cs :=
    trimPadding_eq_self fun c hc => isBlank_eq_false_of_isDecimalDigit (hcs c hc)
  have hsign : sign cs = (false, cs) := sign_digits hne hcs
  have hnumber := number?_digits hne hcs
  have hlimit : ¬digitLimit < (digitValues cs).length := by
    rw [length_digitValues hcs]
    omega
  simp [readInt, integer, htrim, hsign, dropBaseMark_ten, hnumber, hlimit]

/-- More digits than are read are refused. -/
theorem readInt_tooManyDigits (hne : cs ≠ []) (hcs : ∀ c ∈ cs, isDecimalDigit c = true)
    (hlength : digitLimit < cs.length) :
    readInt 10 (String.ofList cs) = .error (.tooManyDigits cs.length) := by
  have htrim : trimPadding cs = cs :=
    trimPadding_eq_self fun c hc => isBlank_eq_false_of_isDecimalDigit (hcs c hc)
  have hsign : sign cs = (false, cs) := sign_digits hne hcs
  have hnumber := number?_digits hne hcs
  simp [readInt, integer, htrim, hsign, dropBaseMark_ten, hnumber, length_digitValues hcs, hlength]

theorem trimPadding_minus (hcs : ∀ c ∈ cs, isDecimalDigit c = true) :
    trimPadding ('-' :: cs) = '-' :: cs := by
  apply trimPadding_eq_self
  intro c hc
  rcases List.mem_cons.mp hc with rfl | hc
  · decide
  · exact isBlank_eq_false_of_isDecimalDigit (hcs c hc)

/-- Digits that are read are an integer that can be written. -/
theorem ofDigits_lt_pow_digitLimit (hcs : ∀ c ∈ cs, isDecimalDigit c = true)
    (hlength : cs.length ≤ digitLimit) :
    ofDigits 10 (digitValues cs) < Nat.pow 10 digitLimit := by
  have hlt := ofDigits_lt fun d (hd : d ∈ digitValues cs) => lt_of_mem_digitValues hd
  rw [length_digitValues hcs] at hlt
  have hpow : Nat.pow 10 cs.length ≤ Nat.pow 10 digitLimit := by
    rw [Nat.pow_eq, Nat.pow_eq]
    exact Nat.pow_le_pow_right (by decide) hlength
  exact Nat.lt_of_lt_of_le hlt hpow

/-- A minus and digits are the negative integer. -/
theorem readInt_minus_digits (hne : cs ≠ []) (hcs : ∀ c ∈ cs, isDecimalDigit c = true)
    (hlength : cs.length ≤ digitLimit) :
    readInt 10 (String.ofList ('-' :: cs)) = .ok (-(ofDigits 10 (digitValues cs) : Int)) := by
  have htrim : trimPadding ('-' :: cs) = '-' :: cs := trimPadding_minus hcs
  have hsign : sign ('-' :: cs) = (true, cs) := rfl
  have hnumber := number?_digits hne hcs
  have hlimit : ¬digitLimit < (digitValues cs).length := by
    rw [length_digitValues hcs]
    omega
  simp [readInt, integer, htrim, hsign, dropBaseMark_ten, hnumber, hlimit]

theorem readInt_minus_tooManyDigits (hne : cs ≠ []) (hcs : ∀ c ∈ cs, isDecimalDigit c = true)
    (hlength : digitLimit < cs.length) :
    readInt 10 (String.ofList ('-' :: cs)) = .error (.tooManyDigits cs.length) := by
  have htrim : trimPadding ('-' :: cs) = '-' :: cs := trimPadding_minus hcs
  have hsign : sign ('-' :: cs) = (true, cs) := rfl
  have hnumber := number?_digits hne hcs
  simp [readInt, integer, htrim, hsign, dropBaseMark_ten, hnumber, length_digitValues hcs, hlength]

/-! ## Decimals -/

section Decimal

variable {fraction : List Char}

/-- Digits, a point and digits have a value. -/
theorem exists_mantissa?_eq_some (hne : cs ≠ []) (hcs : ∀ c ∈ cs, isDecimalDigit c = true)
    (hfne : fraction ≠ []) (hfraction : ∀ c ∈ fraction, isDecimalDigit c = true)
    (negative : Bool) : ∃ x, mantissa? negative (cs ++ '.' :: fraction) = some x := by
  have hwhole : number? 10 (cs ++ '.' :: fraction) = some (digitValues cs, '.' :: fraction) :=
    number?_append hne hcs rfl
  have hbehind := number?_digits hfne hfraction
  have hsome := isEmpty_digitValues hne hcs
  refine ⟨Binary64.ofDecimal negative (ofDigits 10 (digitValues cs ++ digitValues fraction))
    (0 - (digitValues fraction).length), ?_⟩
  simp [mantissa?, hwhole, hbehind, hsome, exponent?]

/-- What has a value behind its sign is a number; the names of infinities are numbers anyway. -/
theorem exists_decimal?_eq_some {raw rest : List Char} {negative : Bool}
    (hsign : sign (trimPadding raw) = (negative, rest))
    (h : ∃ x, mantissa? negative rest = some x) : ∃ x, decimal? raw = some x := by
  simp only [decimal?, hsign]
  split
  · exact ⟨_, rfl⟩
  · split
    · exact ⟨_, rfl⟩
    · exact h

theorem isBlank_eq_false_of_mem_digits (hcs : ∀ c ∈ cs, isDecimalDigit c = true)
    (hfraction : ∀ c ∈ fraction, isDecimalDigit c = true) {c : Char}
    (hc : c ∈ cs ++ '.' :: fraction) : isBlank c = false := by
  rcases List.mem_append.mp hc with hc | hc
  · exact isBlank_eq_false_of_isDecimalDigit (hcs c hc)
  · rcases List.mem_cons.mp hc with rfl | hc
    · decide
    · exact isBlank_eq_false_of_isDecimalDigit (hfraction c hc)

/-- Digits, a point and digits are a number, with and without a minus. -/
theorem exists_decimal?_digits (hne : cs ≠ []) (hcs : ∀ c ∈ cs, isDecimalDigit c = true)
    (hfne : fraction ≠ []) (hfraction : ∀ c ∈ fraction, isDecimalDigit c = true) :
    (∃ x, decimal? (cs ++ '.' :: fraction) = some x) ∧
      ∃ x, decimal? ('-' :: (cs ++ '.' :: fraction)) = some x := by
  have hvalue := exists_mantissa?_eq_some hne hcs hfne hfraction
  have hblank := fun c => isBlank_eq_false_of_mem_digits hcs hfraction (c := c)
  constructor
  · refine @exists_decimal?_eq_some _ _ false ?_ (hvalue false)
    rw [trimPadding_eq_self hblank, sign_append hne hcs]
  · refine @exists_decimal?_eq_some _ _ true ?_ (hvalue true)
    rw [trimPadding_eq_self]
    · rfl
    · intro c hc
      rcases List.mem_cons.mp hc with rfl | hc
      · decide
      · exact hblank c hc

end Decimal

theorem exists_readDecimal_eq_ok {raw : List Char} (h : ∃ x, decimal? raw = some x) :
    ∃ x, readDecimal (String.ofList raw) = .ok x := by
  obtain ⟨x, hx⟩ := h
  exact ⟨x, by simp [readDecimal, hx]⟩

/-! ## Reading what is written -/

theorem digitValue?_of_isDigit {c : Char} (h : c.isDigit = true) :
    digitValue? c = some (c.toNat - '0'.toNat) := by
  have hupper : c.toNat ≤ 0x39 := (Char.isDigit_iff_toNat.mp h).2
  simp only [digitValue?, h, if_true, if_pos (show c.toNat < 0x80 by omega)]
  rfl

theorem isDecimalDigit_of_isDigit {c : Char} (h : c.isDigit = true) : isDecimalDigit c = true := by
  rw [isDecimalDigit, digitValue?_of_isDigit h]
  rfl

/-- Among ASCII digits the value is core's. -/
theorem ofDigits_digitValues (hcs : ∀ c ∈ cs, c.isDigit = true) :
    ofDigits 10 (digitValues cs) = Nat.ofDigitChars 10 cs 0 := by
  have go (n : Nat) : (digitValues cs).foldl (fun n d => n * 10 + d) n =
      Nat.ofDigitChars 10 cs n := by
    induction cs generalizing n with
    | nil => rfl
    | cons c cs ih =>
      rw [digitValues_cons (digitValue?_of_isDigit (hcs c List.mem_cons_self)), List.foldl_cons,
        ih fun b hb => hcs b (List.mem_cons_of_mem _ hb), Nat.ofDigitChars_cons, Nat.mul_comm 10]
  exact go 0

/-- The digits of a number that can be written. -/
theorem isDecimalDigit_of_mem_toDigits {n : Nat} {c : Char} (h : c ∈ Nat.toDigits 10 n) :
    isDecimalDigit c = true :=
  isDecimalDigit_of_isDigit (Nat.isDigit_of_mem_toDigits (by decide) (by decide) h)

theorem ofDigits_toDigits (n : Nat) : ofDigits 10 (digitValues (Nat.toDigits 10 n)) = n := by
  rw [ofDigits_digitValues fun c hc => Nat.isDigit_of_mem_toDigits (by decide) (by decide) hc,
    Nat.ofDigitChars_ten_toDigits]

/-- A number below a power has no more digits. -/
theorem length_toDigits_le {n length : Nat} (hpos : 0 < length) (h : n < Nat.pow 10 length) :
    (Nat.toDigits 10 n).length ≤ length :=
  (Nat.length_toDigits_le_iff (by decide) hpos).mpr h

theorem toString_eq_ofList (n : Int) :
    toString n = String.ofList ((if n < 0 then ['-'] else []) ++ Nat.toDigits 10 n.natAbs) := by
  cases n with
  | ofNat n => rfl
  | negSucc n =>
    rw [if_pos (Int.negSucc_lt_zero n), Int.natAbs_negSucc]
    exact String.toList_injective (by simp [toString, Int.repr])

/-- An integer that can be written is read back. -/
theorem readInt_toString {n : Int} (hn : n.natAbs < Nat.pow 10 digitLimit) :
    readInt 10 (toString n) = .ok n := by
  have hlength : (Nat.toDigits 10 n.natAbs).length ≤ digitLimit := length_toDigits_le (by decide) hn
  have hdigits := fun c (hc : c ∈ Nat.toDigits 10 n.natAbs) => isDecimalDigit_of_mem_toDigits hc
  rw [toString_eq_ofList]
  split
  · next hneg =>
    rw [List.singleton_append, readInt_minus_digits Nat.toDigits_ne_nil hdigits hlength,
      ofDigits_toDigits]
    exact congrArg Except.ok (by omega)
  · next hpos =>
    rw [List.nil_append, readInt_digits Nat.toDigits_ne_nil hdigits hlength, ofDigits_toDigits]
    exact congrArg Except.ok (by omega)

end Schematic
