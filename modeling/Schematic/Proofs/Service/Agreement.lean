import Schematic.Proofs.Service.Render
import Schematic.Proofs.Service.Run

/-!
# Parsing and drawing a text agree

A service that is asked for the document of a text and one that is asked for its diagram read the
text once each and build their answers apart. The ways out of drawing are many: the text cannot be
parsed, its format is not known, the check of its tree finds errors, drawing fails, or there is a
diagram. On each of them both answers hold the same findings, and the one answer fails to have a
document exactly if the text has none, with an error that the other one repeats.

Blank texts are one exception. Parsing tells them as a syntax error and drawing as a text of no
known format, with nothing found. The other one is a text that is nested as deeply as it can be. The
diagram is asked for through more calls than the document, so a text may have a document and be
nested too deeply to be drawn.

## Main definitions

- `Agrees` — what the two answers to a text have in common

## Main statements

- `Rendering.ofDocument_format`, `Rendering.ofDocument_issues` — what every answer to a document
  holds, drawn or not
- `agrees_iff_not_blank` — both requests are answered, and the answers agree unless the text is
  blank, if there is room for it in both places
- `not_agrees_of_nested` — there need not be
-/

namespace Schematic

/-- What the reply with the document of a text and the rendering of it have in common, if the text
is parsed one call further down for the reply. -/
structure Agrees (stack : Stack) (content : String) (reply : ParseReply)
    (rendering : Rendering) : Prop where
  issues_eq : reply.issues = rendering.issues
  /-- The reply has an error exactly if the text cannot be parsed, and it is the one of the text. -/
  failed_iff : ∀ failure, reply.outcome = .error failure ↔
    parse (stack.below 1) content = .error (.failure failure)
  /-- Then there is no diagram, and the same is said behind a few words of introduction. -/
  error_eq : ∀ failure, reply.outcome = .error failure →
    rendering.outcome = .error ("Unsupported or malformed input: " ++ failure.message)
  format_eq : ∀ doc, reply.outcome = .ok doc → rendering.format = doc.format

/-! ## The answers to a document -/

namespace Rendering

/-- The format of a document is told whether or not there is a diagram. -/
theorem ofDocument_format (doc : Document) : (ofDocument doc).format = doc.format := by
  unfold ofDocument
  simp only
  split <;> rfl

/-- What the check finds is told whether or not there is a diagram. -/
theorem ofDocument_issues (doc : Document) :
    (ofDocument doc).issues = (validate doc.root doc.format).issues := by
  unfold ofDocument
  simp only
  split <;> rfl

end Rendering

section Answers

variable {stack : Stack} {content : String}

/-- Both answers to a text with a document. -/
theorem agrees_of_parse_eq_ok {doc : Document} (h : parse (stack.below 1) content = .ok doc)
    (hbelow : parse ((stack.below 1).below 2) content = .ok doc) :
    Agrees stack content (ParseReply.ofDocument doc) (render (stack.below 1) content) := by
  rw [render_of_parse_eq_ok hbelow]
  constructor
  case issues_eq =>
    by_cases hunknown : doc.format = .unknown
    · rw [if_pos hunknown, ParseReply.ofDocument, if_pos hunknown]
      rfl
    · rw [if_neg hunknown, ParseReply.ofDocument, if_neg hunknown, Rendering.ofDocument_issues]
  case failed_iff =>
    intro failure
    rw [h]
    exact iff_of_false (fun heq => by cases heq) (fun heq => by cases heq)
  case error_eq =>
    intro failure heq
    cases heq
  case format_eq =>
    intro found heq
    obtain rfl := Except.ok.inj heq
    by_cases hunknown : doc.format = .unknown
    · rw [if_pos hunknown, hunknown]
      rfl
    · rw [if_neg hunknown, Rendering.ofDocument_format]

/-- Both answers to a text that cannot be parsed. -/
theorem agrees_of_parse_eq_failure {failure : SyntaxFailure}
    (hblank : Text.isAllBlank content.toList = false)
    (h : parse (stack.below 1) content = .error (.failure failure))
    (hbelow : parse ((stack.below 1).below 2) content = .error (.failure failure)) :
    Agrees stack content (ParseReply.ofFailure failure) (render (stack.below 1) content) := by
  have hrender : render (stack.below 1) content = Rendering.ofFailure failure := by
    rw [render, if_neg (by simp [hblank]), hbelow]
  rw [hrender]
  constructor
  case issues_eq => rfl
  case failed_iff =>
    intro found
    rw [h]
    constructor
    · intro heq
      obtain rfl := Except.error.inj heq
      rfl
    · intro heq
      rw [LoadError.failure.inj (Except.error.inj heq)]
      rfl
  case error_eq =>
    intro found heq
    obtain rfl := Except.error.inj heq
    rfl
  case format_eq =>
    intro doc heq
    cases heq

/-- The answers to a blank text tell different things. -/
theorem not_agrees_of_blank (hblank : Text.isAllBlank content.toList = true)
    (failure : SyntaxFailure) :
    ¬Agrees stack content (ParseReply.ofFailure failure) (render (stack.below 1) content) := by
  intro h
  -- The syntax error is the one thing that parsing finds, and drawing finds nothing.
  have hissues := h.issues_eq
  rw [render, if_pos hblank] at hissues
  cases hissues

end Answers

/-! ## The two requests -/

section Requests

variable {stack : Stack} {s : Service} {content : String} {options : Value}
  (hoptions : s.options? = some options) (hadmits : Options.Admits options content)

include hoptions hadmits

theorem Service.handle_generate_of_admits :
    s.handle stack (.generate content) =
      (s, .ok (.rendering (render (stack.below 1) content))) := by
  rw [Service.handle_of_onText? rfl,
    Service.checkContent_eq_ok_iff.mpr ⟨options, hoptions, hadmits⟩]
  rfl

theorem Service.handle_parse_of_admits {reply : ParseReply}
    (h : ParseReply.ofText stack content = .ok reply) :
    s.handle stack (.parse content) = (s, .ok (.document reply)) := by
  rw [Service.handle_of_onText? rfl,
    Service.checkContent_eq_ok_iff.mpr ⟨options, hoptions, hadmits⟩, h]
  rfl

/-- A text that the options admit and that parsing answers is answered by both requests, whatever
came before, and neither changes the service. If the text is parsed the same where it is drawn, the
answers agree exactly if it is not blank; and it is parsed the same there, or it is nested too
deeply. -/
theorem agrees_iff_not_blank
    (hanswered : ∀ fault, parse (stack.below 1) content ≠ .error (.fault fault)) :
    ∃ reply, s.handle stack (.parse content) = (s, .ok (.document reply)) ∧
      s.handle stack (.generate content) =
        (s, .ok (.rendering (render (stack.below 1) content))) ∧
      (parse ((stack.below 1).below 2) content = parse (stack.below 1) content →
        (Agrees stack content reply (render (stack.below 1) content) ↔
          Text.isAllBlank content.toList = false)) ∧
      (parse ((stack.below 1).below 2) content = parse (stack.below 1) content ∨
        ∃ e, IsTooDeep e ∧ parse ((stack.below 1).below 2) content = .error e) := by
  have hbelow : parse ((stack.below 1).below 2) content = parse (stack.below 1) content ∨
      ∃ e, IsTooDeep e ∧ parse ((stack.below 1).below 2) content = .error e := by
    rcases sameUnless_parse_below (stack.below 1) 2 content with heq | ⟨e, heq, he⟩
    · exact .inl heq
    · exact .inr ⟨e, he, heq⟩
  -- What parsing comes to for the reply decides which reply there is.
  cases hresult : parse (stack.below 1) content with
  | ok doc =>
    have hreply : ParseReply.ofText stack content = .ok (ParseReply.ofDocument doc) := by
      rw [ParseReply.ofText, hresult]
    refine ⟨ParseReply.ofDocument doc,
      Service.handle_parse_of_admits hoptions hadmits hreply,
      Service.handle_generate_of_admits hoptions hadmits, fun hsame => ?_, hresult ▸ hbelow⟩
    exact iff_of_true (agrees_of_parse_eq_ok hresult hsame)
      (isAllBlank_eq_false_of_parse_eq_ok hresult)
  | error e =>
    cases e with
    | fault fault => exact absurd hresult (hanswered fault)
    | failure failure =>
      have hreply : ParseReply.ofText stack content = .ok (ParseReply.ofFailure failure) := by
        rw [ParseReply.ofText, hresult]
      refine ⟨ParseReply.ofFailure failure,
        Service.handle_parse_of_admits hoptions hadmits hreply,
        Service.handle_generate_of_admits hoptions hadmits,
        fun hsame => ⟨fun h => ?_, fun hblank => ?_⟩, hresult ▸ hbelow⟩
      · rw [← Bool.not_eq_true]
        exact fun hblank => not_agrees_of_blank hblank failure h
      · exact agrees_of_parse_eq_failure hblank hresult hsame

end Requests

/-- Services of which one is no mapping and the other one has no image. -/
def brokenServices : String :=
  "version: '3'\nservices:\n  web: 80\n  db: \x7b\x7d\n"

theorem agrees_iff_not_blank_brokenServices :
    Options.Admits (.map []) brokenServices ∧
      (∀ fault, parse (Stack.standard.below 1) brokenServices ≠ .error (.fault fault)) ∧
      (render (Stack.standard.below 1) brokenServices).success = false ∧
      (render (Stack.standard.below 1) brokenServices).issues.length = 2 ∧
      ∃ reply, Service.handle .standard ⟨some (.map []), 1⟩ (.parse brokenServices) =
          (⟨some (.map []), 1⟩, .ok (.document reply)) ∧
        Agrees .standard brokenServices reply (render (Stack.standard.below 1) brokenServices) := by
  have hadmits : Options.Admits (.map []) brokenServices :=
    ⟨[], _, rfl, .standard rfl, by decide +kernel⟩
  have hparsed :
      (parse ((Stack.standard.below 1).below 2) brokenServices).toOption.isSome = true := by
    decide +kernel
  cases hbelow : parse ((Stack.standard.below 1).below 2) brokenServices with
  | error e =>
    rw [hbelow] at hparsed
    cases hparsed
  | ok doc =>
    have hparse := (sameUnless_parse_below (Stack.standard.below 1) 2 brokenServices).eq_ok hbelow
    have hanswered : ∀ fault, parse (Stack.standard.below 1) brokenServices ≠
        .error (.fault fault) := by
      intro fault h
      rw [hparse] at h
      cases h
    obtain ⟨reply, hreply, -, hagrees, -⟩ :=
      @agrees_iff_not_blank .standard ⟨some (.map []), 1⟩ brokenServices _ rfl hadmits hanswered
    refine ⟨hadmits, hanswered, by decide +kernel, by decide +kernel, reply, hreply, ?_⟩
    exact (hagrees (hbelow.trans hparse.symm)).mpr (by decide +kernel)

/-- Lists that take all the room there is for the document leave too little for the diagram, so the
answers to such a text do not agree, though it is not blank. -/
theorem not_agrees_of_nested :
    ¬∀ (s : Service) (content : String) (options : Value), s.options? = some options →
      Options.Admits options content → Text.isAllBlank content.toList = false →
        (∀ fault, parse (Stack.standard.below 1) content ≠ .error (.fault fault)) →
          ∀ reply rendering, s.handle .standard (.parse content) = (s, .ok (.document reply)) →
            s.handle .standard (.generate content) = (s, .ok (.rendering rendering)) →
              Agrees .standard content reply rendering := by
  intro h
  obtain ⟨options, hadmits⟩ := Options.exists_admits (resourceText 988)
  have hparse : parse (Stack.standard.below 1) (resourceText 988) =
      .ok (resourceDocument 988) := by
    rw [parse_resourceText, if_pos]
    decide
  have hbelow : parse ((Stack.standard.below 1).below 2) (resourceText 988) =
      .error (Load.tooDeep .json) := by
    rw [parse_resourceText, if_neg]
    decide
  have hreply : ParseReply.ofText .standard (resourceText 988) =
      .ok (ParseReply.ofDocument (resourceDocument 988)) := by
    rw [ParseReply.ofText, hparse]
  have hagrees := h ⟨some options, 1⟩ _ _ rfl hadmits (isAllBlank_resourceText 988)
    (by rw [hparse]; rintro fault ⟨⟩) _ _
    (Service.handle_parse_of_admits rfl hadmits hreply)
    (Service.handle_generate_of_admits rfl hadmits)
  -- The document has a format, and the answer without a diagram tells none.
  have hformat := hagrees.format_eq _ rfl
  rw [render, if_neg (by simp [isAllBlank_resourceText]), hbelow] at hformat
  cases hformat

end Schematic
