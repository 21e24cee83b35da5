import Mathlib.Data.List.Basic
import Schematic.Proofs.Json.Numeral
import Schematic.Proofs.Value.Plain

/-!
# Reading JSON up to a number

The reader of JSON fails for a number only where an integer with too many digits stands in the
text. What it reads otherwise has none, so it can be written again, and it is a plain tree. All of
this holds of every step of the reader: what is left is the end of the text, and what scalars have
and lists and mappings inherit from their parts, everything has that has been read so far.

## Main definitions

- `IsInherited` — what scalars have and lists and mappings inherit from their parts
- `Step.IsSound` — what holds between two steps
- `Explained` — a failure for a number shows in the text

## Main statements

- `leads_readValue`, `leads_readKey`, `leads_readAfter` — the steps
- `walk_spec` — the walk
- `exists_run_of_read`, `IsInherited.of_read` — the whole text
- `isWritable_of_read`, `isPlain_of_read` — what is read can be written, and is plain
-/

namespace Schematic.Json

open Value

/-! ## Strings -/

/-- A failure for a number shows in the text: a run of digits that is too long. -/
def Explained (text : List Char) : Fault → Prop
  | .number e => ∃ run, run <:+: text ∧ (∀ c ∈ run, Text.isDecimalDigit c = true) ∧
      digitLimit < run.length ∧ e = .tooManyDigits run.length
  | _ => True

variable {text : List Char} {limit : Nat}

theorem suffix_of_stringBody {opened : Nat} {done cs name rest : List Char}
    (h : stringBody opened done cs = .ok (name, rest)) : rest <:+ cs := by
  fun_induction stringBody opened done cs with
  | case1 => cases h
  | case2 done cs =>
    obtain ⟨-, rfl⟩ := Prod.mk.inj (Except.ok.inj h)
    exact List.suffix_cons _ _
  | case3 => cases h
  | case4 done cs c taken _ ih =>
    -- An escape by its digits takes more than one character.
    have hescape : cs <:+ '\\' :: 'u' :: cs :=
      (List.suffix_cons 'u' cs).trans (List.suffix_cons '\\' _)
    exact (ih h).trans ((List.drop_suffix taken cs).trans hescape)
  | case5 => cases h
  | case6 done c cs _ _ _ ih =>
    exact (ih h).trans ((List.suffix_cons c cs).trans (List.suffix_cons '\\' _))
  | case7 => cases h
  | case8 => cases h
  | case9 done c cs _ _ _ _ _ ih => exact (ih h).trans (List.suffix_cons c cs)

theorem failsWith_hexDigits (left : Nat) (cs : List Char) :
    FailsWith (Explained text) (hexDigits left cs) := by
  unfold hexDigits
  split
  · rintro _ ⟨⟩
    trivial
  · split
    · exact failsWith_ok _
    · rintro _ ⟨⟩
      trivial

theorem failsWith_hexEscape (cs : List Char) : FailsWith (Explained text) (hexEscape cs) := by
  refine (failsWith_hexDigits _ cs).bind fun high _ => ?_
  split
  · next more _ =>
    split
    · refine (failsWith_hexDigits _ more).bind fun low _ => ?_
      split <;> exact failsWith_ok _
    · exact failsWith_ok _
  · exact failsWith_ok _

/-- No string fails for a number. -/
theorem failsWith_stringBody (opened : Nat) (done cs : List Char) :
    FailsWith (Explained text) (stringBody opened done cs) := by
  fun_induction stringBody opened done cs with
  | case2 => exact failsWith_ok _
  | case4 _ _ _ _ _ ih => exact ih
  | case5 done cs e he =>
    rintro _ ⟨⟩
    exact failsWith_hexEscape cs e he
  | case6 _ _ _ _ _ _ ih => exact ih
  | case9 _ _ _ _ _ _ _ _ ih => exact ih
  | _ =>
    rintro _ ⟨⟩
    trivial

/-! ## Scalars -/

/-- A scalar is a constant or a numeral. -/
theorem scalar?_cases {cs rest : List Char} {value : Except NumberError Value}
    (h : scalar? cs = some (value, rest)) :
    (∃ entry ∈ constants, cs = entry.1.toList ++ rest ∧ value = .ok entry.2) ∨
      ∃ n : Numeral, cs = n.chars ++ rest ∧ value = n.value := by
  unfold scalar? at h
  simp only at h
  split at h
  · next found hfound =>
    obtain rfl := Option.some.inj h
    obtain ⟨entry, hmem, hentry⟩ := List.exists_of_findSome?_eq_some hfound
    obtain ⟨left, hleft, heq⟩ := Option.map_eq_some_iff.mp hentry
    obtain ⟨rfl, rfl⟩ := Prod.mk.inj heq
    exact .inl ⟨entry, hmem, (List.append_eq_of_isPrefixOf?_eq_some hleft).symm, rfl⟩
  · exact .inr (exists_numeral_of_number? h)

/-! ## What is inherited -/

/-- What holds of every scalar, and of lists and mappings if it holds of their parts. -/
structure IsInherited (P : Value → Prop) : Prop where
  constant : ∀ entry ∈ constants, P entry.2
  numeral : ∀ (n : Numeral) (v : Value), n.value = .ok v → P v
  str : ∀ s, P (.str s)
  list : ∀ xs, (∀ x ∈ xs, P x) → P (.list xs)
  map : ∀ es, (∀ e ∈ es, P e.2) → P (.map es)

theorem isInherited_isWritable : IsInherited fun v => v.isWritable = true where
  constant := by
    intro entry h
    simp only [constants, List.mem_cons, List.not_mem_nil, or_false] at h
    rcases h with rfl | rfl | rfl | rfl | rfl | rfl <;> rfl
  numeral n _ h := n.isWritable_value h
  str _ := rfl
  list _ h := areAllWritable_iff.mpr h
  map _ h := isWritable_map_iff.mpr h

theorem isInherited_isPlain : IsInherited fun v => v.isPlain = true where
  constant := by
    intro entry h
    simp only [constants, List.mem_cons, List.not_mem_nil, or_false] at h
    rcases h with rfl | rfl | rfl | rfl | rfl | rfl <;> rfl
  numeral n v h := by
    rcases n.value_cases h with ⟨i, rfl⟩ | ⟨x, rfl⟩ <;> rfl
  str _ := rfl
  list _ h := isPlain_list_iff.mpr h
  map _ h := isPlain_map_iff.mpr h

variable {P : Value → Prop}

theorem IsInherited.mapOf (hP : IsInherited P) {entries : List (String × Value)}
    (h : ∀ e ∈ entries, P e.2) : P (mapOf entries) := by
  rw [Json.mapOf]
  apply hP.map
  exact Entries.forall_mem_ofList fun e he => h e (List.mem_reverse.mp he)

/-! ## Steps -/

/-- Something holds of everything that an open container holds so far. -/
def Frame.HasAll (P : Value → Prop) : Frame → Prop
  | .list items => ∀ v ∈ items, P v
  | .map entries _ => ∀ e ∈ entries, P e.2

/-- Something holds of everything that has been read so far. -/
def Step.HasAll (P : Value → Prop) : Step → Prop
  | .value stack _ => ∀ frame ∈ stack, frame.HasAll P
  | .key stack entries _ => (∀ frame ∈ stack, frame.HasAll P) ∧ ∀ e ∈ entries, P e.2
  | .close stack v _ => (∀ frame ∈ stack, frame.HasAll P) ∧ P v

/-- What holds between two steps. -/
structure Step.IsSound (P : Value → Prop) (text : List Char) (step : Step) : Prop where
  left : step.left <:+ text
  hasAll : step.HasAll P

/-- A step leads to a sound one, or its failure is explained. -/
structure Leads (P : Value → Prop) (text : List Char) (next : Except Fault Step) : Prop where
  sound : ∀ step, next = .ok step → step.IsSound P text
  explained : FailsWith (Explained text) next

theorem Leads.of_ok {step : Step} (left : step.left <:+ text) (hasAll : step.HasAll P) :
    Leads P text (.ok step) where
  sound := by
    rintro _ ⟨⟩
    exact ⟨left, hasAll⟩
  explained := failsWith_ok step

theorem Leads.of_error {e : Fault} (h : Explained text e) : Leads P text (.error e) where
  sound := by
    rintro _ ⟨⟩
  explained := by
    rintro _ ⟨⟩
    exact h

/-- A step that begins with something whose failure is explained. -/
theorem Leads.bind {α : Type} {r : Except Fault α} {f : α → Except Fault Step}
    (hr : FailsWith (Explained text) r) (hf : ∀ a, r = .ok a → Leads P text (f a)) :
    Leads P text (r >>= f) := by
  cases r with
  | error e => exact .of_error (hr e rfl)
  | ok a => exact hf a rfl

theorem suffix_skipSpace (cs : List Char) : skipSpace cs <:+ cs :=
  List.dropWhile_suffix _

/-- A scalar has what is inherited, and one that is refused is an integer of the text. -/
theorem leads_scalar? (hP : IsInherited P) {stack : List Frame}
    (hstack : ∀ frame ∈ stack, frame.HasAll P) {cs rest : List Char} (hcs : cs <:+ text)
    {value : Except NumberError Value} (h : scalar? cs = some (value, rest)) :
    (∀ v, value = .ok v → Leads P text (.ok (.close stack v rest))) ∧
      ∀ e, value = .error e → Leads P text (.error (.number e)) := by
  rcases scalar?_cases h with ⟨entry, hmem, rfl, rfl⟩ | ⟨n, rfl, rfl⟩
  · have hrest : rest <:+ text := (List.suffix_append _ rest).trans hcs
    refine ⟨fun v hv => ?_, fun e he => by cases he⟩
    obtain rfl := Except.ok.inj hv
    exact .of_ok hrest ⟨hstack, hP.constant entry hmem⟩
  · refine ⟨fun v hv => ?_, fun e he => ?_⟩
    · exact .of_ok ((List.suffix_append _ rest).trans hcs) ⟨hstack, hP.numeral n v hv⟩
    · -- The digits that are too many stand in the text behind the sign.
      obtain ⟨hlong, rfl⟩ := n.value_eq_error he
      have hwhole : n.whole <:+: n.chars ++ rest := by
        refine ⟨if n.negative then ['-'] else [], n.part ++ n.power ++ rest, ?_⟩
        simp [Numeral.chars, Numeral.unsigned]
      exact .of_error ⟨n.whole, hwhole.trans hcs.isInfix, n.isDecimalDigit_whole, hlong, rfl⟩

section Steps

variable {stack : List Frame} (hstack : ∀ frame ∈ stack, frame.HasAll P)

include hstack

theorem leads_readValue (hP : IsInherited P) {cs : List Char} (hcs : cs <:+ text) :
    Leads P text (readValue limit stack cs) := by
  have hbehind {c : Char} {rest more : List Char} (hrest : c :: rest <:+ text)
      (hmore : more <:+ skipSpace rest) : more <:+ text :=
    hmore.trans ((suffix_skipSpace rest).trans ((List.suffix_cons c rest).trans hrest))
  unfold readValue
  split
  · split
    · exact .of_error trivial
    · split
      · next rest _ more hmore =>
        exact .of_ok (hbehind hcs (hmore ▸ List.suffix_cons _ more)) ⟨hstack, hP.list [] (by simp)⟩
      · refine .of_ok (hbehind hcs (List.suffix_refl _)) ?_
        exact List.forall_mem_cons.mpr ⟨by simp [Frame.HasAll], hstack⟩
  · split
    · exact .of_error trivial
    · split
      · next rest _ more hmore =>
        exact .of_ok (hbehind hcs (hmore ▸ List.suffix_cons _ more)) ⟨hstack, hP.map [] (by simp)⟩
      · exact .of_ok (hbehind hcs (List.suffix_refl _)) ⟨hstack, by simp⟩
  · next rest =>
    have hrest := (List.suffix_cons '"' rest).trans hcs
    refine .bind (failsWith_stringBody _ _ rest) fun body hbody => ?_
    exact .of_ok ((suffix_of_stringBody hbody).trans hrest) ⟨hstack, hP.str _⟩
  · split
    · next hscalar => exact (leads_scalar? hP hstack hcs hscalar).1 _ rfl
    · next hscalar => exact (leads_scalar? hP hstack hcs hscalar).2 _ rfl
    · exact .of_error trivial

theorem leads_readKey {entries : List (String × Value)} (hentries : ∀ e ∈ entries, P e.2)
    {cs : List Char} (hcs : cs <:+ text) : Leads P text (readKey stack entries cs) := by
  unfold readKey
  split
  · next rest =>
    have hrest := (List.suffix_cons '"' rest).trans hcs
    refine .bind (failsWith_stringBody _ _ rest) fun body hbody => ?_
    obtain ⟨name, left⟩ := body
    simp only
    split
    · next more hmore =>
      have hbody := (suffix_of_stringBody hbody).trans hrest
      have hcolon := (hmore ▸ suffix_skipSpace left).trans hbody
      refine .of_ok ((suffix_skipSpace more).trans ((List.suffix_cons ':' more).trans hcolon)) ?_
      exact List.forall_mem_cons.mpr ⟨hentries, hstack⟩
    · exact .of_error trivial
  · exact .of_error trivial

theorem leads_readAfter (hP : IsInherited P) {frame : Frame} (hframe : frame.HasAll P)
    {value : Value} (hvalue : P value) {cs : List Char} (hcs : cs <:+ text) :
    Leads P text (readAfter frame stack value cs) := by
  have hbehind {c : Char} {rest : List Char} (hrest : c :: rest <:+ text) : rest <:+ text :=
    (List.suffix_cons c rest).trans hrest
  unfold readAfter
  split
  · next items rest =>
    have hitems : (Frame.list (value :: items)).HasAll P :=
      List.forall_mem_cons.mpr ⟨hvalue, hframe⟩
    refine .of_ok ((suffix_skipSpace rest).trans (hbehind hcs)) ?_
    exact List.forall_mem_cons.mpr ⟨hitems, hstack⟩
  · next items rest =>
    have hitems : ∀ v ∈ value :: items, P v := List.forall_mem_cons.mpr ⟨hvalue, hframe⟩
    refine .of_ok (hbehind hcs) ⟨hstack, hP.list _ fun v hv => ?_⟩
    exact hitems v (List.mem_reverse.mp hv)
  · next entries key rest =>
    refine .of_ok ((suffix_skipSpace rest).trans (hbehind hcs)) ⟨hstack, ?_⟩
    exact List.forall_mem_cons.mpr ⟨hvalue, hframe⟩
  · next entries key rest =>
    refine .of_ok (hbehind hcs) ⟨hstack, hP.mapOf ?_⟩
    exact List.forall_mem_cons.mpr ⟨hvalue, hframe⟩
  · exact .of_error trivial

end Steps

/-! ## The walk -/

/-- What one step keeps, the walk keeps. -/
theorem walk_spec (hP : IsInherited P) {step : Step} (h : step.IsSound P text) (fuel : Nat) :
    FailsWith (Explained text) (walk limit fuel step) ∧
      ∀ v rest, walk limit fuel step = .ok (v, rest) → P v := by
  induction fuel generalizing step with
  | zero =>
    constructor
    · rintro _ ⟨⟩
      trivial
    · rintro v rest ⟨⟩
  | succ fuel ih =>
    have hgo {next : Except Fault Step} (hnext : Leads P text next) :
        FailsWith (Explained text) (next.bind (walk limit fuel)) ∧
          ∀ v rest, next.bind (walk limit fuel) = .ok (v, rest) → P v := by
      cases next with
      | error e =>
        exact ⟨fun _ he => Except.error.inj he ▸ hnext.explained e rfl, fun _ _ he => by cases he⟩
      | ok step' => exact ih (hnext.sound step' rfl)
    -- Each kind of step is one of the three readers, and these lead from sound steps to sound ones.
    obtain ⟨hleft, hall⟩ := h
    cases step with
    | value stack cs => exact hgo (leads_readValue hall hP hleft)
    | key stack entries cs => exact hgo (leads_readKey hall.1 hall.2 hleft)
    | close stack value cs =>
      cases stack with
      | nil =>
        refine ⟨failsWith_ok _, ?_⟩
        rintro v rest ⟨⟩
        exact hall.2
      | cons frame stack =>
        obtain ⟨hframes, hvalue⟩ := hall
        rw [List.forall_mem_cons] at hframes
        have hskip := (suffix_skipSpace cs).trans hleft
        exact hgo (leads_readAfter hframes.2 hP hframes.1 hvalue hskip)

/-! ## Whole texts -/

theorem isSound_start (P : Value → Prop) (cs : List Char) :
    (Step.value [] (skipSpace cs)).IsSound P cs :=
  ⟨suffix_skipSpace cs, by simp [Step.HasAll]⟩

theorem failsWith_readAll (cs : List Char) : FailsWith (Explained cs) (readAll limit cs) := by
  have hstart := isSound_start (fun v => v.isWritable = true) cs
  unfold readAll
  split
  · rintro _ ⟨⟩
    trivial
  · refine (walk_spec isInherited_isWritable hstart (cs.length + 2)).1.bind fun found _ => ?_
    obtain ⟨value, rest⟩ := found
    simp only
    split
    · exact failsWith_ok _
    · rintro _ ⟨⟩
      trivial

theorem IsInherited.of_readAll (hP : IsInherited P) {cs : List Char} {v : Value}
    (h : readAll limit cs = .ok v) : P v := by
  unfold readAll at h
  split at h
  · cases h
  · obtain ⟨⟨value, rest⟩, hwalk, h⟩ := exists_of_bind_eq_ok h
    have hvalue := (walk_spec hP (isSound_start P cs) (cs.length + 2)).2 value rest hwalk
    simp only at h
    split at h
    · exact Except.ok.inj h ▸ hvalue
    · cases h

/-- What is inherited holds of every tree that was read. -/
theorem IsInherited.of_read (hP : IsInherited P) {source : String} {v : Value}
    (h : read limit source = .ok v) : P v := by
  unfold read at h
  simp only at h
  split at h
  · next hread => exact Except.ok.inj h ▸ hP.of_readAll hread
  · cases h
  · cases h
  · cases h

/-- A tree that was read from JSON can be written again. -/
theorem isWritable_of_read {source : String} {v : Value} (h : read limit source = .ok v) :
    v.isWritable = true :=
  isInherited_isWritable.of_read h

/-- A tree that was read from JSON is plain. -/
theorem isPlain_of_read {source : String} {v : Value} (h : read limit source = .ok v) :
    v.isPlain = true :=
  isInherited_isPlain.of_read h

/-- JSON fails for a number only where an integer with too many digits stands in the text. -/
theorem exists_run_of_read {source : String} {e : NumberError}
    (h : read limit source = .error (.number e)) :
    ∃ run, run <:+: source.toList ∧ (∀ c ∈ run, Text.isDecimalDigit c = true) ∧
      digitLimit < run.length ∧ e = .tooManyDigits run.length := by
  unfold read at h
  simp only at h
  split at h
  · cases h
  · cases h
  · cases h
  · next hread =>
    obtain rfl := ReadError.number.inj (Except.error.inj h)
    exact failsWith_readAll _ _ hread

end Schematic.Json
