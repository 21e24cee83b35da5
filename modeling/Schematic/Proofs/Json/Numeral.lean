import Mathlib.Data.List.TakeDrop
import Schematic.Json.Reader
import Schematic.Proofs.Number.Reading
import Schematic.Proofs.Value.Writable

/-!
# Numbers of JSON

A number of JSON is made of a sign, digits, and perhaps a fraction and an exponent. With one of the
last two it is always read; without them it is an integer, which is read up to the limit of digits
and can then be written again.

## Main definitions

- `Numeral`, `Numeral.value` — the text of a number in its parts, and what it is read as

## Main statements

- `exists_numeral_of_number?` — what the reader takes as a number
- `Numeral.value_eq_error`, `Numeral.value_cases`, `Numeral.isWritable_value` — when it is read, and
  as what
-/

namespace Schematic.Json

open Reading

/-! ## Parts of a number -/

/-- A fraction, or none. -/
inductive IsPart : List Char → Prop where
  | none : IsPart []
  | digits {ds : List Char} (hne : ds ≠ []) (hds : ∀ c ∈ ds, Text.isDecimalDigit c = true) :
      IsPart ('.' :: ds)

/-- An exponent, or none. -/
inductive IsPower : List Char → Prop where
  | none : IsPower []
  | digits {mark : Char} (hmark : mark = 'e' ∨ mark = 'E') {sign ds : List Char}
      (hsign : sign = [] ∨ sign = ['-'] ∨ sign = ['+']) (hne : ds ≠ [])
      (hds : ∀ c ∈ ds, Text.isDecimalDigit c = true) : IsPower (mark :: (sign ++ ds))

/-- No digits begin where an exponent may. -/
theorem IsPower.digitRun?_eq {power : List Char} (h : IsPower power) :
    digitRun? 10 power = some ([], power) := by
  cases h with
  | none => rfl
  | digits hmark => rcases hmark with rfl | rfl <;> rfl

/-- An exponent has a value. -/
theorem IsPower.exists_exponent?_eq_some {power : List Char} (h : IsPower power) :
    ∃ e, exponent? power = some e := by
  cases h with
  | none => exact ⟨0, rfl⟩
  | @digits mark hmark sign ds hsign hne hds =>
    have hbegins : (mark = 'e' || mark = 'E') = true := by simpa using hmark
    have hnumber := number?_digits hne hds
    obtain ⟨negative, hnegative⟩ : ∃ negative, Reading.sign (sign ++ ds) = (negative, ds) := by
      rcases hsign with rfl | rfl | rfl
      · exact ⟨false, sign_digits hne hds⟩
      · exact ⟨true, rfl⟩
      · exact ⟨false, rfl⟩
    rw [exponent?, if_pos hbegins, hnegative]
    simp only [hnumber]
    exact ⟨_, rfl⟩

theorem IsPart.isBlank_eq_false {part : List Char} (h : IsPart part) :
    ∀ c ∈ part, Text.isBlank c = false := by
  cases h with
  | none => simp
  | digits _ hds =>
    rw [List.forall_mem_cons]
    exact ⟨by decide, fun c hc => Text.isBlank_eq_false_of_isDecimalDigit (hds c hc)⟩

theorem IsPower.isBlank_eq_false {power : List Char} (h : IsPower power) :
    ∀ c ∈ power, Text.isBlank c = false := by
  cases h with
  | none => simp
  | digits hmark hsign _ hds =>
    rw [List.forall_mem_cons, List.forall_mem_append]
    refine ⟨?_, ?_, fun c hc => Text.isBlank_eq_false_of_isDecimalDigit (hds c hc)⟩
    · rcases hmark with rfl | rfl <;> decide
    · rcases hsign with rfl | rfl | rfl <;> decide

/-- Digits with a fraction and an exponent, or without, have a value. -/
theorem exists_mantissa?_eq_some {whole part power : List Char} (hne : whole ≠ [])
    (hwhole : ∀ c ∈ whole, Text.isDecimalDigit c = true) (hpart : IsPart part)
    (hpower : IsPower power) (negative : Bool) :
    ∃ x, mantissa? negative (whole ++ (part ++ power)) = some x := by
  obtain ⟨e, he⟩ := hpower.exists_exponent?_eq_some
  have hsome := Text.isEmpty_digitValues hne hwhole
  cases hpart with
  | none =>
    have hnumber := number?_append hne hwhole hpower.digitRun?_eq
    rw [List.nil_append]
    cases hpower with
    | none =>
      rw [List.append_nil] at hnumber ⊢
      simp [mantissa?, hnumber, hsome, he]
    | digits hmark => rcases hmark with rfl | rfl <;> simp [mantissa?, hnumber, hsome, he]
  | @digits ds hdne hds =>
    have hnumber : Reading.number? 10 (whole ++ '.' :: (ds ++ power)) =
        some (Text.digitValues whole, '.' :: (ds ++ power)) := number?_append hne hwhole rfl
    have hfraction := number?_append hdne hds hpower.digitRun?_eq
    simp [mantissa?, hnumber, hfraction, hsome, he]

theorem append_digits (cs : List Char) : (digits cs).1 ++ (digits cs).2 = cs := by
  rw [digits, List.span_eq_takeWhile_dropWhile]
  exact List.takeWhile_append_dropWhile

theorem isDecimalDigit_of_mem_digits {cs : List Char} :
    ∀ c ∈ (digits cs).1, Text.isDecimalDigit c = true := by
  intro c hc
  rw [digits, List.span_eq_takeWhile_dropWhile] at hc
  exact isDecimalDigit_of_isDigit (List.all_eq_true.mp List.all_takeWhile c hc)

theorem isPart_fraction (cs : List Char) :
    IsPart (fraction cs).1 ∧ (fraction cs).1 ++ (fraction cs).2 = cs := by
  unfold fraction
  split
  · next rest =>
    have happend := append_digits rest
    have hdigits := @isDecimalDigit_of_mem_digits rest
    split
    · exact ⟨.none, rfl⟩
    · next ds left hne heq =>
      rw [heq] at happend hdigits
      refine ⟨.digits ?_ hdigits, by rw [← happend]; rfl⟩
      rintro rfl
      exact hne rfl
  · exact ⟨.none, rfl⟩

theorem isPower_exponent (cs : List Char) :
    IsPower (exponent cs).1 ∧ (exponent cs).1 ++ (exponent cs).2 = cs := by
  unfold exponent
  split
  · next c rest =>
    split
    · next hmark =>
      rw [Bool.or_eq_true, decide_eq_true_iff, decide_eq_true_iff] at hmark
      split
      · next begun tail heq =>
        obtain ⟨sign, hsign, rfl, rfl⟩ : ∃ sign, (sign = [] ∨ sign = ['-'] ∨ sign = ['+']) ∧
            begun = c :: sign ∧ rest = sign ++ tail := by
          split at heq
          · obtain ⟨rfl, rfl⟩ := Prod.mk.inj heq
            exact ⟨['-'], by simp⟩
          · obtain ⟨rfl, rfl⟩ := Prod.mk.inj heq
            exact ⟨['+'], by simp⟩
          · obtain ⟨rfl, rfl⟩ := Prod.mk.inj heq
            exact ⟨[], by simp⟩
        have happend := append_digits tail
        have hdigits := @isDecimalDigit_of_mem_digits tail
        split
        · exact ⟨.none, rfl⟩
        · next ds left hne heq =>
          rw [heq] at happend hdigits
          refine ⟨.digits hmark hsign ?_ hdigits, by simp [← happend]⟩
          rintro rfl
          exact hne rfl
    · exact ⟨.none, rfl⟩
  · exact ⟨.none, rfl⟩

/-! ## Numerals -/

/-- The text of a number in its parts. -/
structure Numeral where
  negative : Bool
  whole : List Char
  part : List Char
  power : List Char
  whole_ne_nil : whole ≠ []
  isDecimalDigit_whole : ∀ c ∈ whole, Text.isDecimalDigit c = true
  isPart : IsPart part
  isPower : IsPower power

namespace Numeral

variable (n : Numeral)

def unsigned : List Char :=
  n.whole ++ (n.part ++ n.power)

def chars : List Char :=
  (if n.negative then ['-'] else []) ++ n.unsigned

/-- Without a fraction and an exponent the number is an integer. -/
def value : Except NumberError Value :=
  if n.part.isEmpty && n.power.isEmpty then
    (readInt 10 (String.ofList n.chars)).map Value.int
  else (readDecimal (String.ofList n.chars)).map Value.float

/-! ### Integers -/

theorem chars_of_isEmpty (h : (n.part.isEmpty && n.power.isEmpty) = true) :
    n.chars = (if n.negative then ['-'] else []) ++ n.whole := by
  rw [Bool.and_eq_true, List.isEmpty_iff, List.isEmpty_iff] at h
  rw [chars, unsigned, h.1, h.2, List.append_nil, List.append_nil]

/-- Within the limit of digits an integer is read, and it can be written again. -/
theorem exists_readInt_eq_ok (hlength : n.whole.length ≤ digitLimit) :
    ∃ i, readInt 10 (String.ofList ((if n.negative then ['-'] else []) ++ n.whole)) = .ok i ∧
      hasShortDigits i = true := by
  have hlt := ofDigits_lt_pow_digitLimit n.isDecimalDigit_whole hlength
  cases n.negative with
  | true =>
    refine ⟨_, readInt_minus_digits n.whole_ne_nil n.isDecimalDigit_whole hlength, ?_⟩
    rwa [hasShortDigits_iff, Int.natAbs_neg, Int.natAbs_natCast]
  | false =>
    refine ⟨_, readInt_digits n.whole_ne_nil n.isDecimalDigit_whole hlength, ?_⟩
    rwa [hasShortDigits_iff, Int.natAbs_natCast]

/-- Beyond the limit it is refused. -/
theorem readInt_eq_error (hlength : digitLimit < n.whole.length) :
    readInt 10 (String.ofList ((if n.negative then ['-'] else []) ++ n.whole)) =
      .error (.tooManyDigits n.whole.length) := by
  cases n.negative with
  | true => exact readInt_minus_tooManyDigits n.whole_ne_nil n.isDecimalDigit_whole hlength
  | false => exact readInt_tooManyDigits n.whole_ne_nil n.isDecimalDigit_whole hlength

/-! ### Decimals -/

theorem isBlank_eq_false_of_mem_unsigned : ∀ c ∈ n.unsigned, Text.isBlank c = false := by
  rw [unsigned, List.forall_mem_append, List.forall_mem_append]
  exact ⟨fun c hc => Text.isBlank_eq_false_of_isDecimalDigit (n.isDecimalDigit_whole c hc),
    n.isPart.isBlank_eq_false, n.isPower.isBlank_eq_false⟩

theorem exists_decimal?_eq_some : ∃ x, decimal? n.chars = some x := by
  have hblank := n.isBlank_eq_false_of_mem_unsigned
  have hvalue := Json.exists_mantissa?_eq_some n.whole_ne_nil n.isDecimalDigit_whole n.isPart
    n.isPower
  unfold chars
  cases n.negative with
  | true =>
    refine @Schematic.exists_decimal?_eq_some _ _ true ?_ (hvalue true)
    rw [trimPadding_eq_self]
    · rfl
    · rw [if_pos rfl, List.forall_mem_append]
      exact ⟨by decide, hblank⟩
  | false =>
    refine @Schematic.exists_decimal?_eq_some _ _ false ?_ (hvalue false)
    rw [if_neg (by decide), List.nil_append, trimPadding_eq_self hblank, unsigned,
      sign_append n.whole_ne_nil n.isDecimalDigit_whole]

/-! ### Values -/

theorem isWritable_value {v : Value} (h : n.value = .ok v) : v.isWritable = true := by
  unfold value at h
  split at h
  · next hinteger =>
    rw [n.chars_of_isEmpty hinteger] at h
    by_cases hlength : n.whole.length ≤ digitLimit
    · obtain ⟨i, hi, hshort⟩ := n.exists_readInt_eq_ok hlength
      rw [hi] at h
      obtain rfl := Except.ok.inj h
      exact hshort
    · rw [n.readInt_eq_error (Nat.not_le.mp hlength)] at h
      cases h
  · obtain ⟨x, hx⟩ := exists_readDecimal_eq_ok n.exists_decimal?_eq_some
    rw [hx] at h
    obtain rfl := Except.ok.inj h
    rfl

/-- A numeral is read as an integer or as a decimal number. -/
theorem value_cases {v : Value} (h : n.value = .ok v) :
    (∃ i, v = .int i) ∨ ∃ x, v = .float x := by
  unfold value at h
  split at h
  · obtain ⟨i, -, rfl⟩ := map_eq_ok_iff.mp h
    exact .inl ⟨i, rfl⟩
  · obtain ⟨x, -, rfl⟩ := map_eq_ok_iff.mp h
    exact .inr ⟨x, rfl⟩

theorem value_eq_error {e : NumberError} (h : n.value = .error e) :
    digitLimit < n.whole.length ∧ e = .tooManyDigits n.whole.length := by
  unfold value at h
  split at h
  · next hinteger =>
    rw [n.chars_of_isEmpty hinteger] at h
    by_cases hlength : n.whole.length ≤ digitLimit
    · obtain ⟨i, hi, -⟩ := n.exists_readInt_eq_ok hlength
      rw [hi] at h
      cases h
    · have hlong := Nat.not_le.mp hlength
      rw [n.readInt_eq_error hlong] at h
      exact ⟨hlong, (Except.error.inj h).symm⟩
  · obtain ⟨x, hx⟩ := exists_readDecimal_eq_ok n.exists_decimal?_eq_some
    rw [hx] at h
    cases h

end Numeral

/-- What the reader takes as a number is one, and it is read as such. -/
theorem exists_numeral_of_number? {cs rest : List Char} {value : Except NumberError Value}
    (h : number? cs = some (value, rest)) :
    ∃ n : Numeral, cs = n.chars ++ rest ∧ value = n.value := by
  unfold number? at h
  -- The reader takes the parts from the front one after the other.
  split at h
  next sign unsigned hsign =>
  split at h
  next whole left hwhole =>
  obtain ⟨negative, rfl, rfl⟩ : ∃ negative : Bool, sign = (if negative then ['-'] else []) ∧
      cs = sign ++ unsigned := by
    split at hsign
    · obtain ⟨rfl, rfl⟩ := Prod.mk.inj hsign
      exact ⟨true, rfl, rfl⟩
    · obtain ⟨rfl, rfl⟩ := Prod.mk.inj hsign
      exact ⟨false, rfl, rfl⟩
  obtain ⟨hdigits, rfl⟩ : (∀ c ∈ whole, Text.isDecimalDigit c = true) ∧
      unsigned = whole ++ left := by
    split at hwhole
    · -- A zero in front is a number of its own.
      obtain ⟨rfl, rfl⟩ := Prod.mk.inj hwhole
      exact ⟨by decide, rfl⟩
    · have happend := append_digits unsigned
      have hmem := @isDecimalDigit_of_mem_digits unsigned
      rw [hwhole] at happend hmem
      exact ⟨hmem, happend.symm⟩
  split at h
  · cases h
  · next hne =>
    obtain ⟨hpart, hleft⟩ := isPart_fraction left
    cases hfraction : fraction left with
    | mk part after =>
      rw [hfraction] at h hpart hleft
      obtain ⟨hpower, hafter⟩ := isPower_exponent after
      cases hexponent : exponent after with
      | mk power tail =>
        simp only [hexponent] at h hpower hafter
        obtain ⟨rfl, rfl⟩ := Prod.mk.inj (Option.some.inj h)
        refine ⟨⟨negative, whole, part, power, by simpa using hne, hdigits, hpart, hpower⟩, ?_, ?_⟩
        · simp [Numeral.chars, Numeral.unsigned, ← hleft, ← hafter]
        · rw [Numeral.value]
          split
          · next hinteger => rw [Numeral.chars_of_isEmpty _ hinteger]
          · simp [Numeral.chars, Numeral.unsigned]

end Schematic.Json
