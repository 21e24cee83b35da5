import Schematic.Hcl.Configuration
import Schematic.Proofs.Hcl.Brace
import Schematic.Proofs.Number.Reading
import Schematic.Proofs.Text.Blank
import Schematic.Proofs.Text.Search
import Schematic.Proofs.Value.Writable

/-!
# Runs of digits in a configuration

An integer is read only up to a limit of digits, so reading the variables of a configuration fails
where a number is too long. What is read as a number stands in the text with its comments left
out: taking comments out may join digits, and nothing else that is done to a body does. A text
that has no long run of digits without its comments therefore has details of all its variables,
and all of these can be written again.

## Main definitions

- `HasShortRuns` — no run of digits is longer than what is read
- `withoutComments` — a text without its comments

## Main statements

- `hasShortRuns_append_cons` — a run ends at every other character
- `exists_scalar_eq_ok` — an expression with short runs has a value that can be written
- `exists_variableDetails_eq_ok` — so have the variables of a text
-/

namespace Schematic.Hcl

open Lexeme

/-! ## Runs of digits -/

/-- No run of digits is longer than what is read. -/
def HasShortRuns (cs : List Char) : Prop :=
  ∀ run, run <:+: cs → (∀ c ∈ run, Text.isDecimalDigit c = true) → run.length ≤ digitLimit

theorem HasShortRuns.mono {cs part : List Char} (h : HasShortRuns cs) (hpart : part <:+: cs) :
    HasShortRuns part :=
  fun run hrun => h run (hrun.trans hpart)

/-- A run ends at every character that is no digit. -/
theorem hasShortRuns_append_cons {front back : List Char} {c : Char}
    (hc : Text.isDecimalDigit c = false) :
    HasShortRuns (front ++ c :: back) ↔ HasShortRuns front ∧ HasShortRuns back := by
  constructor
  · intro h
    exact ⟨h.mono (List.prefix_append front (c :: back)).isInfix,
      h.mono ((List.suffix_cons c back).trans (List.suffix_append front _)).isInfix⟩
  · rintro ⟨hfront, hback⟩ run hinfix hrun
    have hsep : c ∉ run := fun hmem => absurd (hrun c hmem) (by simp [hc])
    rcases (Text.infix_append_cons_iff hsep).mp hinfix with h | h
    · exact hfront run h hrun
    · exact hback run h hrun

/-! ## Comments -/

/-- What of a lexeme is no comment. -/
def Lexeme.shown : Lexeme → List Char
  | comment _ => []
  | l => l.text

/-- A text without its comments. -/
def withoutComments (cs : List Char) : List Char :=
  (ofText cs).flatMap shown

/-- The text at the top level of a body has no longer runs than the body without its comments,
whatever stands in front of both. -/
theorem hasShortRuns_top {ls : List Lexeme} (front before : List Char)
    (h : HasShortRuns (front ++ ls.flatMap shown)) :
    HasShortRuns (front ++ (splitLexemes before ls).top) := by
  fun_induction splitLexemes before ls generalizing front with
  | case1 => exact h
  | case2 before text rest ih =>
    simpa only [List.unattach_reverse, List.unattach_attach] using ih front h
  | case3 before rest hcut =>
    rw [List.append_nil]
    exact h.mono (List.prefix_append _ _).isInfix
  | case4 before rest inner after hcut text more ih =>
    -- The two braces that stand for the block end the runs on both sides.
    rw [← append_of_cutBlock? hcut] at h
    have hsplit : front ++ (openBrace :: (inner ++ closeBrace :: after)).flatMap shown =
        front ++ '{' :: (inner.flatMap shown ++ '}' :: after.flatMap shown) := by
      simp [shown, Lexeme.text]
    rw [hsplit, hasShortRuns_append_cons (by decide), hasShortRuns_append_cons (by decide)] at h
    have hmore : HasShortRuns ('}' :: more.top) := by
      have := (@hasShortRuns_append_cons [] _ '}' (by decide)).mpr
        ⟨h.2.1.mono List.nil_infix, ih [] h.2.2⟩
      rwa [List.nil_append, List.nil_append] at this
    exact (hasShortRuns_append_cons (by decide)).mpr ⟨h.1, hmore⟩
  | case5 before lexeme rest hcomment hopen more ih =>
    have hshown : lexeme.shown = lexeme.text := by
      cases lexeme with
      | comment text => exact absurd rfl (hcomment text)
      | _ => rfl
    rw [List.flatMap_cons, hshown, ← List.append_assoc] at h
    rw [← List.append_assoc]
    exact ih (front ++ lexeme.text) h

/-- The body of a block has no longer runs at its top level than the text without its comments. -/
theorem hasShortRuns_top_of_mem_blocks {keyword : String} {cs : List Char} {block : Block}
    (h : HasShortRuns (withoutComments cs)) (hblock : block ∈ blocks keyword cs) :
    HasShortRuns (split block.body).top := by
  obtain ⟨f, hbody⟩ := exists_factor_of_mem_blocks hblock
  have hinner : HasShortRuns (f.inner.flatMap shown) := by
    have hshown := congrArg (List.flatMap shown) f.eq_append
    refine h.mono ⟨f.front.flatMap shown ++ openBrace.shown,
      closeBrace.shown ++ f.back.flatMap shown, Eq.trans ?_ hshown.symm⟩
    simp
  rw [hbody, split, f.ofText_inner]
  exact hasShortRuns_top [] [] hinner

/-! ## Lines and assignments -/

/-- The first line stands at the front of a text. -/
theorem prefix_of_lines_eq_cons {cs line : List Char} {more : List (List Char)}
    (h : Text.lines cs = line :: more) : line <+: cs := by
  fun_induction Text.lines cs generalizing line more with
  | case1 => cases h
  | case2 rest ih =>
    obtain ⟨rfl, -⟩ := List.cons.inj h
    exact List.nil_prefix
  | case3 c rest hpair hbreak ih =>
    obtain ⟨rfl, -⟩ := List.cons.inj h
    exact List.nil_prefix
  | case4 c rest hpair hbreak hlines ih =>
    obtain ⟨rfl, -⟩ := List.cons.inj h
    exact List.prefix_append [c] rest
  | case5 c rest hpair hbreak first others hlines ih =>
    obtain ⟨rfl, -⟩ := List.cons.inj h
    exact (List.prefix_cons_inj c).mpr (ih hlines)

theorem infix_of_mem_lines {line cs : List Char} (h : line ∈ Text.lines cs) : line <:+: cs := by
  fun_induction Text.lines cs with
  | case1 => cases h
  | case2 rest ih =>
    rcases List.mem_cons.mp h with rfl | h
    · exact List.nil_infix
    · exact (ih h).trans ((List.suffix_cons _ rest).trans (List.suffix_cons _ _)).isInfix
  | case3 c rest hpair hbreak ih =>
    rcases List.mem_cons.mp h with rfl | h
    · exact List.nil_infix
    · exact (ih h).trans (List.suffix_cons c rest).isInfix
  | case4 c rest hpair hbreak hlines ih =>
    rw [List.mem_singleton.mp h]
    exact (List.prefix_append [c] rest).isInfix
  | case5 c rest hpair hbreak first others hlines ih =>
    rcases List.mem_cons.mp h with rfl | h
    · exact ((List.prefix_cons_inj c).mpr (prefix_of_lines_eq_cons hlines)).isInfix
    · exact (ih (hlines ▸ List.mem_cons_of_mem _ h)).trans (List.suffix_cons c rest).isInfix

theorem suffix_of_identifier? {cs name rest : List Char}
    (h : identifier? cs = some (name, rest)) : rest <:+ cs := by
  unfold identifier? at h
  split at h
  · next c cs =>
    split at h
    · obtain ⟨-, rfl⟩ := Prod.mk.inj (Option.some.inj h)
      exact (List.dropWhile_suffix _).trans (List.suffix_cons c cs)
    · cases h
  · cases h

/-- What is assigned on a line stands on it. -/
theorem infix_of_assignment? {line name value : List Char}
    (h : assignment? line = some (name, value)) : value <:+: line := by
  unfold assignment? at h
  split at h
  · cases h
  · next hname =>
    split at h
    · next hvalue =>
      obtain ⟨-, rfl⟩ := Prod.mk.inj (Option.some.inj h)
      have hrest := (List.suffix_cons _ _).trans (hvalue ▸ Text.suffix_trimLeft _)
      have hline := (suffix_of_identifier? hname).trans (Text.suffix_trimLeft line)
      exact (Text.infix_trim _).trans (hrest.trans hline).isInfix
    · cases h

/-- What a body assigns has no longer runs than its text at the top level. -/
theorem hasShortRuns_of_mem_assignments {body name value : List Char}
    (h : HasShortRuns (split body).top) (hmem : (name, value) ∈ assignments body) :
    HasShortRuns value := by
  obtain ⟨line, hline, hassign⟩ := List.mem_filterMap.mp hmem
  exact h.mono ((infix_of_assignment? hassign).trans (infix_of_mem_lines hline))

/-! ## Numbers -/

/-- Digits, perhaps with a point and digits behind. -/
inductive IsUnsigned : List Char → Prop where
  | whole {digits : List Char} (hne : digits ≠ [])
      (hdigits : ∀ c ∈ digits, Text.isDecimalDigit c = true) : IsUnsigned digits
  | decimal {digits fraction : List Char} (hne : digits ≠ [])
      (hdigits : ∀ c ∈ digits, Text.isDecimalDigit c = true) (hfne : fraction ≠ [])
      (hfraction : ∀ c ∈ fraction, Text.isDecimalDigit c = true) :
      IsUnsigned (digits ++ '.' :: fraction)

theorem isUnsigned_of_digits {cs : List Char}
    (h : (match cs.dropWhile Text.isDecimalDigit with
      | [] => !(cs.takeWhile Text.isDecimalDigit).isEmpty
      | '.' :: fraction => !(cs.takeWhile Text.isDecimalDigit).isEmpty && !fraction.isEmpty &&
        fraction.all Text.isDecimalDigit
      | _ => false) = true) : IsUnsigned cs := by
  have hwhole := List.all_eq_true.mp (List.all_takeWhile (p := Text.isDecimalDigit) (l := cs))
  split at h
  · next hrest =>
    rw [← List.takeWhile_append_dropWhile (p := Text.isDecimalDigit) (l := cs), hrest,
      List.append_nil]
    exact .whole (by simpa using h) hwhole
  · next fraction hrest =>
    rw [← List.takeWhile_append_dropWhile (p := Text.isDecimalDigit) (l := cs), hrest]
    simp only [Bool.and_eq_true, Bool.not_eq_true', List.isEmpty_eq_false_iff,
      List.all_eq_true] at h
    exact .decimal h.1.1 hwhole h.1.2 h.2
  · cases h

/-- What is taken as a number is digits behind a minus or none. -/
theorem isUnsigned_of_isNumber {raw : List Char} (h : isNumber raw = true) :
    ∃ digits, IsUnsigned digits ∧ (raw = digits ∨ raw = '-' :: digits) := by
  cases raw with
  | nil => simp [isNumber] at h
  | cons c rest =>
    by_cases hc : c = '-'
    · subst hc
      exact ⟨rest, isUnsigned_of_digits h, .inr rfl⟩
    · unfold isNumber at h
      split at h
      · next heq => exact absurd (List.cons.inj heq).1 hc
      · exact ⟨c :: rest, isUnsigned_of_digits h, .inl rfl⟩

/-- No digits have a point among them. -/
theorem not_mem_point {digits : List Char} (h : ∀ c ∈ digits, Text.isDecimalDigit c = true) :
    '.' ∉ digits :=
  Text.not_mem_of_class h (by decide)

/-- A number with short runs of digits is read, and can be written. -/
theorem exists_number_eq_ok {raw : List Char} (h : HasShortRuns raw)
    (hraw : isNumber raw = true) :
    ∃ v, (if raw.contains '.' then (readDecimal (String.ofList raw)).map fun x => some (.float x)
      else (readInt 10 (String.ofList raw)).map fun n => some (.int n)) = .ok (some v) ∧
        Value.isWritable v = true := by
  obtain ⟨digits, hunsigned, hminus⟩ := isUnsigned_of_isNumber hraw
  cases hunsigned with
  | whole hne hdigits =>
    have hpoint : raw.contains '.' ≠ true := by
      rcases hminus with rfl | rfl <;> simp [not_mem_point hdigits]
    -- The digits are a run of the expression, with or without a minus in front.
    have hlength : digits.length ≤ digitLimit := by
      apply h digits _ hdigits
      rcases hminus with rfl | rfl
      · exact List.infix_rfl
      · exact (List.suffix_cons '-' digits).isInfix
    have hlt := ofDigits_lt_pow_digitLimit hdigits hlength
    rw [if_neg hpoint]
    rcases hminus with rfl | rfl
    · rw [readInt_digits hne hdigits hlength]
      refine ⟨_, rfl, ?_⟩
      rwa [Value.isWritable, hasShortDigits_iff, Int.natAbs_natCast]
    · rw [readInt_minus_digits hne hdigits hlength]
      refine ⟨_, rfl, ?_⟩
      rwa [Value.isWritable, hasShortDigits_iff, Int.natAbs_neg, Int.natAbs_natCast]
  -- Around a point there may be as many digits as there are.
  | @decimal digits fraction hne hdigits hfne hfraction =>
    have hpoint : raw.contains '.' = true := by
      rcases hminus with rfl | rfl <;> simp
    obtain ⟨hplain, hnegative⟩ := exists_decimal?_digits hne hdigits hfne hfraction
    rw [if_pos hpoint]
    rcases hminus with rfl | rfl
    · obtain ⟨x, hx⟩ := exists_readDecimal_eq_ok hplain
      exact ⟨.float x, by rw [hx]; rfl, rfl⟩
    · obtain ⟨x, hx⟩ := exists_readDecimal_eq_ok hnegative
      exact ⟨.float x, by rw [hx]; rfl, rfl⟩

/-- An expression with short runs of digits has a value that can be written, if any. -/
theorem exists_scalar_eq_ok {raw : List Char} (h : HasShortRuns raw) :
    ∃ value, scalar raw = .ok value ∧ ∀ v, value = some v → v.isWritable = true := by
  have str (s : String) : ∀ v, some (Value.str s) = some v → v.isWritable = true := by
    rintro v hv
    obtain rfl := Option.some.inj hv
    rfl
  have bool (b : Bool) : ∀ v, some (Value.bool b) = some v → v.isWritable = true := by
    rintro v hv
    obtain rfl := Option.some.inj hv
    rfl
  -- Only the branch of the numbers can fail.
  unfold scalar
  split
  · exact ⟨_, rfl, str _⟩
  · split
    · exact ⟨_, rfl, bool _⟩
    · split
      · exact ⟨_, rfl, bool _⟩
      · split
        · next hnumber =>
          obtain ⟨v, hv, hwritable⟩ := exists_number_eq_ok h hnumber
          refine ⟨some v, hv, ?_⟩
          rintro w hw
          exact Option.some.inj hw ▸ hwritable
        · split
          · exact ⟨_, rfl, str _⟩
          · exact ⟨none, rfl, by simp⟩

/-! ## Variables -/

/-- Entries all of which can be written. -/
def AreWritable (entries : Entries Value) : Prop :=
  ∀ e ∈ entries, e.2.isWritable = true

theorem areWritable_nil : AreWritable [] := by
  simp [AreWritable]

theorem AreWritable.insert {entries : Entries Value} (h : AreWritable entries) {value : Value}
    (hvalue : value.isWritable = true) (key : String) :
    AreWritable (entries.insert key value) :=
  Entries.forall_mem_insert (P := fun v : Value => v.isWritable = true) h hvalue key

/-- An assignment with short runs of digits adds what can be written. -/
theorem exists_addDetail_eq_ok {info : Entries Value} (h : AreWritable info) {key raw : List Char}
    (hraw : HasShortRuns raw) :
    ∃ info', addDetail info key raw = .ok info' ∧ AreWritable info' := by
  have hstr (s : String) : (Value.str s).isWritable = true := rfl
  unfold addDetail
  split
  · exact ⟨_, rfl, h.insert (hstr _) "type"⟩
  · split
    · obtain ⟨value, hvalue, hwritable⟩ := exists_scalar_eq_ok hraw
      rw [hvalue]
      refine ⟨_, rfl, h.insert ?_ "default"⟩
      cases value with
      | none => exact hstr _
      | some v => exact hwritable v rfl
    · split
      · exact ⟨_, rfl, h.insert (hstr _) "description"⟩
      · exact ⟨info, rfl, h⟩

/-- The variables of a text without long runs of digits have details that can be written. -/
theorem exists_variableDetails_eq_ok {cs : List Char} (h : HasShortRuns (withoutComments cs)) :
    ∃ found, variableDetails cs = .ok found ∧ AreWritable found := by
  -- Every block adds its details to those found before, and these stay writable.
  refine exists_foldlM_eq_ok (fun found hfound block hblock => ?_) areWritable_nil
  have htop := hasShortRuns_top_of_mem_blocks h hblock
  have hdetails : ∃ info, details block.body = .ok info ∧ AreWritable info := by
    refine exists_foldlM_eq_ok (fun info hinfo assigned hassigned => ?_) areWritable_nil
    exact exists_addDetail_eq_ok hinfo (hasShortRuns_of_mem_assignments htop hassigned)
  obtain ⟨info, hinfo, hwritable⟩ := hdetails
  split
  · exact ⟨found, rfl, hfound⟩
  · next name more hlabels =>
    rw [hinfo]
    refine ⟨_, rfl, hfound.insert ?_ name⟩
    rw [Value.isWritable_map_iff]
    exact hwritable

end Schematic.Hcl
