import Schematic.Proofs.Document.Loaded
import Schematic.Proofs.Hcl.Overlong
import Schematic.Proofs.Json.Reader
import Schematic.Proofs.Json.Writer

/-!
# Texts that parsing answers

Parsing is meant to answer every text, with a document or with what is wrong with the text. It does
unless a value that the text denotes does not exist or cannot be shown. A configuration has no
answer if a resource of it holds an integer with too many digits. Any other text has none if reading
it fails for a number or a date, or if its format has to be looked for in a tree that cannot be
written: because of an integer that is too long, or because there is no room for its levels where it
is written, though there was where it was read. JSON has no such integers, but it has such levels.

## Main definitions

- `IsAnswered` — a document, or what is wrong with the text

## Main statements

- `isAnswered_parse_iff` — which texts are answered
- `not_isAnswered_parse` — not all of them are
-/

namespace Schematic

open Parse

/-- A text is answered with a document, or with what is wrong with it. -/
def IsAnswered (result : Except LoadError Document) : Prop :=
  (∃ doc, result = .ok doc) ∨ ∃ failure, result = .error (.failure failure)

theorem isAnswered_ok (doc : Document) : IsAnswered (.ok doc) :=
  .inl ⟨doc, rfl⟩

theorem isAnswered_failure (failure : SyntaxFailure) : IsAnswered (.error (.failure failure)) :=
  .inr ⟨failure, rfl⟩

theorem not_isAnswered_fault (fault : Fault) : ¬IsAnswered (.error (.fault fault)) := by
  rintro (⟨doc, h⟩ | ⟨failure, h⟩) <;> cases h

instance (result : Except LoadError Document) : Decidable (IsAnswered result) :=
  match result with
  | .ok doc => isTrue (isAnswered_ok doc)
  | .error (.failure failure) => isTrue (isAnswered_failure failure)
  | .error (.fault fault) => isFalse (not_isAnswered_fault fault)

/-- Where every failure leaves a text without an answer, there is one if nothing fails. -/
theorem isAnswered_mapError_iff {ε α : Type} {r : Except ε α} {g : ε → Fault}
    {f : α → Document} :
    IsAnswered ((r.mapError fun e => .fault (g e)) >>= fun a => pure (f a)) ↔ Succeeds r := by
  cases r with
  | error e => exact iff_of_false (not_isAnswered_fault _) (not_succeeds_error e)
  | ok a => exact iff_of_true (isAnswered_ok _) (succeeds_ok a)

/-! ## Trees -/

/-- A mapping has a format if its fields tell one or if it can be written. -/
theorem succeeds_ofTree_iff {room : Room} {tree : Entries Value} {isJson : Bool} :
    Succeeds (Format.ofTree room (.map tree) isJson) ↔
      (Format.ofFields? (.map tree) isJson = none →
        (Value.map tree).isWritable = true ∧
          (Value.map tree).nesting ≤ room.written (.map tree)) := by
  have hmap : (!(Value.map tree).isMap) = false := rfl
  rw [Format.ofTree, hmap, if_neg (by decide)]
  cases Format.ofFields? (.map tree) isJson with
  | some format => exact iff_of_true (succeeds_pure format) (by simp)
  | none =>
    rw [← Json.succeeds_write_iff]
    refine ⟨fun h _ => h.of_bind.of_bind, fun h => ?_⟩
    have hnames : Succeeds (Format.namesResource room (.map tree)) :=
      (h rfl).bind fun _ _ => succeeds_pure _
    exact hnames.bind fun _ _ => succeeds_pure _

theorem isAnswered_ofValues_iff {room : Room} {text : String} {values : List Value}
    {source : Source} :
    IsAnswered (ofValues room text values source) ↔ ∀ tree rest, values = .map tree :: rest →
      Format.ofFields? (.map tree) (source == .json) = none →
        (Value.map tree).isWritable = true ∧
          (Value.map tree).nesting ≤ room.written (.map tree) := by
  unfold ofValues
  split
  · next tree rest =>
    rw [ofWriting, isAnswered_mapError_iff, succeeds_ofTree_iff]
    constructor
    · rintro h _ _ ⟨⟩
      exact h
    · exact fun h => h tree rest rfl
  · next hnone =>
    apply iff_of_true (isAnswered_ok _)
    rintro tree rest rfl
    exact absurd rfl (hnone tree rest)

/-! ## Texts -/

theorem loadYaml_eq_fault_iff {limit : Nat} {cs : List Char} {e : Json.SyntaxError}
    {fault : Fault} : Load.loadYaml limit cs e = .error (.fault fault) ↔
      ∃ inner, fault = .value inner ∧ Yaml.read limit cs = .error (.fault inner) := by
  unfold Load.loadYaml
  cases Yaml.read limit cs with
  | ok documents => simp
  | error failure =>
    cases failure with
    | fault inner =>
      constructor
      · rintro ⟨⟩
        exact ⟨inner, rfl, rfl⟩
      · rintro ⟨_, rfl, ⟨⟩⟩
        rfl
    | _ => simp [Load.tooDeep]

/-- Loading fails for a number or a date if JSON does, for an integer of the text that is too long,
or if the text is no JSON and YAML does. -/
theorem load_eq_fault_iff {room : Room} {text : String} {fault : Fault} :
    load room text = .error (.fault fault) ↔
      (∃ run, run <:+: text.toList ∧ (∀ c ∈ run, Text.isDecimalDigit c = true) ∧
        digitLimit < run.length ∧ fault = .value (.number (.tooManyDigits run.length)) ∧
        Json.read (room.json text) text = .error (.number (.tooManyDigits run.length))) ∨
      ((∃ e, Json.read (room.json text) text = .error (.malformed e)) ∧
        ∃ inner, fault = .value inner ∧
          Yaml.read (room.yaml text) text.toList = .error (.fault inner)) := by
  unfold load
  cases hread : Json.read (room.json text) text with
  | ok v => simp
  | error failure =>
    cases failure with
    | tooDeep => simp [Load.tooDeep]
    | malformed e =>
      have hyaml := @loadYaml_eq_fault_iff (room.yaml text) text.toList e fault
      cases hload : Load.loadYaml (room.yaml text) text.toList e with
      | error failure =>
        rw [hload] at hyaml
        simp [hload, Except.map, ← hyaml]
      | ok documents =>
        rw [hload] at hyaml
        simp [hload, Except.map, ← hyaml]
    | number e =>
      obtain ⟨run, hrun, hdigits, hlong, rfl⟩ := Json.exists_run_of_read hread
      constructor
      · intro h
        exact .inl ⟨run, hrun, hdigits, hlong, (LoadError.fault.inj (Except.error.inj h)).symm, rfl⟩
      · rintro (⟨run', -, -, -, rfl, heq⟩ | ⟨⟨e, he⟩, -⟩)
        · rw [Json.ReadError.number.inj (Except.error.inj heq)]
        · cases he

/-- What is loaded comes from JSON or YAML, and from JSON it can be written. -/
theorem source_of_load {room : Room} {text : String} {values : List Value} {source : Source}
    (h : load room text = .ok (values, source)) :
    (source = .json ∧ ∀ v ∈ values, v.isWritable = true) ∨ source = .yaml := by
  rcases read_of_load h with ⟨rfl, value, rfl, hread⟩ | ⟨rfl, -⟩
  · refine .inl ⟨rfl, fun v hv => ?_⟩
    rw [List.mem_singleton.mp hv]
    exact Json.isWritable_of_read hread
  · exact .inr rfl

/-- A text that is no configuration is answered if it is loaded, and if a tree that has to be told
by the names of its resources can be written. -/
theorem isAnswered_load_iff (stack : Stack) (text : String) :
    IsAnswered (load (stack.room 1) text >>= fun loaded =>
        ofValues (stack.room 2) text loaded.1 loaded.2) ↔
      (∀ fault, load (stack.room 1) text ≠ .error (.fault fault)) ∧
        ∀ tree rest source, load (stack.room 1) text = .ok (.map tree :: rest, source) →
          Format.ofFields? (.map tree) (source == .json) = none →
            (source = .yaml → (Value.map tree).isWritable = true) ∧
              (Value.map tree).nesting ≤ (stack.room 2).written (.map tree) := by
  cases hload : load (stack.room 1) text with
  | error e =>
    cases e with
    | failure failure => exact iff_of_true (isAnswered_failure failure) (by simp)
    | fault fault => exact iff_of_false (not_isAnswered_fault fault) (by simp)
  | ok loaded =>
    obtain ⟨values, source⟩ := loaded
    show IsAnswered (ofValues (stack.room 2) text values source) ↔ _
    rw [isAnswered_ofValues_iff]
    constructor
    · refine fun h => ⟨by simp, fun tree rest source' heq hnone => ?_⟩
      obtain ⟨rfl, rfl⟩ := Prod.mk.inj (Except.ok.inj heq)
      obtain ⟨hwritable, hnesting⟩ := h tree rest rfl hnone
      exact ⟨fun _ => hwritable, hnesting⟩
    · rintro ⟨-, h⟩ tree rest rfl hnone
      obtain ⟨hyaml, hnesting⟩ := h tree rest source rfl hnone
      refine ⟨?_, hnesting⟩
      -- The integers of JSON can always be written, so only YAML leaves a condition on them.
      rcases source_of_load hload with ⟨-, hjson⟩ | hsource
      · exact hjson _ List.mem_cons_self
      · exact hyaml hsource

/-- Which texts are answered, which of them have a tree as configurations and why the others have
none, and what loading fails for besides what is wrong with a text. -/
theorem isAnswered_parse_iff (stack : Stack) (text : String) :
    (IsAnswered (parse stack text) ↔
      Text.isAllBlank text.toList = true ∨
      (isBlocks text.toList = true ∧ Succeeds (Hcl.configuration text.toList)) ∨
      (isBlocks text.toList = false ∧
        (∀ fault, load (stack.room 1) text ≠ .error (.fault fault)) ∧
        ∀ tree rest source, load (stack.room 1) text = .ok (.map tree :: rest, source) →
          Format.ofFields? (.map tree) (source == .json) = none →
            (source = .yaml → (Value.map tree).isWritable = true) ∧
              (Value.map tree).nesting ≤ (stack.room 2).written (.map tree))) ∧
    (Succeeds (Hcl.configuration text.toList) ↔
      ∀ raw ∈ Hcl.resourceExpressions text.toList, ¬Hcl.IsOverlong raw) ∧
    FailsWith Hcl.IsTooManyDigits (Hcl.configuration text.toList) ∧
    ∀ room fault, load room text = .error (.fault fault) ↔
      (∃ run, run <:+: text.toList ∧ (∀ c ∈ run, Text.isDecimalDigit c = true) ∧
        digitLimit < run.length ∧ fault = .value (.number (.tooManyDigits run.length)) ∧
        Json.read (room.json text) text = .error (.number (.tooManyDigits run.length))) ∨
      ((∃ e, Json.read (room.json text) text = .error (.malformed e)) ∧
        ∃ inner, fault = .value inner ∧
          Yaml.read (room.yaml text) text.toList = .error (.fault inner)) := by
  refine ⟨?_, Hcl.succeeds_configuration_iff _, Hcl.failsWith_configuration _,
    fun room fault => load_eq_fault_iff⟩
  rw [← isAnswered_load_iff]
  -- Blank texts come first, then configurations, and everything else is loaded.
  unfold parse
  cases hblank : Text.isAllBlank text.toList with
  | true => exact iff_of_true (isAnswered_failure _) (.inl rfl)
  | false =>
    rw [if_neg (by decide)]
    cases hblocks : isBlocks text.toList with
    | true =>
      rw [if_pos rfl, ofBlocks, ofNumber, isAnswered_mapError_iff]
      simp
    | false =>
      rw [if_neg (by decide)]
      simp

/-! ## A text without an answer -/

/-- The thirteenth month does not exist. -/
theorem not_isAnswered_parse : ¬∀ text, IsAnswered (parse .standard text) := by
  intro h
  exact absurd (h "2020-13-45") (by decide +kernel)

end Schematic
