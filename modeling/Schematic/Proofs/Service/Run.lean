import Mathlib.Data.List.Induction
import Schematic.Proofs.Success
import Schematic.Service.Service

/-!
# Runs of a service

Starts and stops may come in any order, fail and nest, and between them texts arrive. What a service
holds is told by the requests so far: the options of the last start that could load any, as long as
no start was ended since. A text is looked at only under such options and only if they admit its
size, so no answer to a text leaks out before a start, behind a stop or beyond the limit.

## Main definitions

- `Options.HasLimit`, `Options.Admits` — the limit that options set, and the texts within it
- `Service.after` — the service after requests one after the other
- `IsInForce` — options that a start put in place and nothing removed
- `Service.IsStep` — what one request may change and answer

## Main statements

- `Service.options?_after_iff` — the options after a run are those in force
- `Service.isStep_handle` — every request is a step
- `Service.isStep_run` — every request of every run
-/

namespace Schematic

/-! ## Texts within the limit -/

namespace Options

/-- The limit of options: the integer that stands for the value under its key, or else the standard
one. -/
inductive HasLimit (entries : Entries Value) : Int → Prop where
  | given {value : Value} {limit : Int}
      (hvalue : Entries.get? "max_input_bytes" entries = some value)
      (hlimit : asInteger value = .ok limit) : HasLimit entries limit
  | standard (h : Entries.get? "max_input_bytes" entries = none) :
      HasLimit entries (5 * 1024 * 1024)

/-- Options that are a mapping with a limit that a text keeps. -/
def Admits (options : Value) (content : String) : Prop :=
  ∃ entries limit, options = .map entries ∧ HasLimit entries limit ∧
    (content.utf8ByteSize : Int) ≤ limit

/-- There are options that admit a text: those with its size as the limit. -/
theorem exists_admits (content : String) : ∃ options, Admits options content :=
  ⟨.map [("max_input_bytes", .int content.utf8ByteSize)], _, _, rfl, .given rfl rfl, Int.le_refl _⟩

theorem sizeLimit_eq_ok_iff {options : Value} {limit : Int} :
    sizeLimit options = .ok limit ↔ ∃ entries, options = .map entries ∧ HasLimit entries limit := by
  cases options with
  | map entries =>
    rw [sizeLimit]
    constructor
    · intro h
      refine ⟨entries, rfl, ?_⟩
      cases hget : Entries.get? limitKey entries with
      | none =>
        rw [hget] at h
        exact Except.ok.inj h ▸ .standard hget
      | some value =>
        rw [hget] at h
        exact .given hget h
    · rintro ⟨_, hentries, hlimit⟩
      obtain rfl := Value.map.inj hentries
      cases hlimit with
      | given hvalue hlimit =>
        rw [limitKey, hvalue]
        exact hlimit
      | standard hnone =>
        rw [limitKey, hnone]
        rfl
  | _ =>
    refine iff_of_false (fun h => by cases h) ?_
    rintro ⟨entries, hentries, -⟩
    cases hentries

theorem checkSize_eq_ok_iff {content : String} {options : Value} :
    checkSize content options = .ok () ↔ Admits options content := by
  unfold checkSize
  constructor
  · intro h
    obtain ⟨limit, hlimit, hrest⟩ := exists_of_bind_eq_ok h
    obtain ⟨entries, rfl, hentries⟩ := sizeLimit_eq_ok_iff.mp hlimit
    refine ⟨entries, limit, rfl, hentries, ?_⟩
    by_contra hsize
    -- A text that is too large is refused, whether or not the limit can be shown.
    rw [if_neg hsize] at hrest
    obtain ⟨shown, -, hrest⟩ := exists_of_bind_eq_ok hrest
    cases hrest
  · rintro ⟨entries, limit, rfl, hentries, hsize⟩
    refine bind_eq_ok (sizeLimit_eq_ok_iff.mpr ⟨entries, rfl, hentries⟩) ?_
    rw [if_pos hsize]
    rfl

end Options

section Requests

variable (stack : Stack)

/-- A request about a text: the text, and the answer to it once its size has been checked. -/
def Request.onText? : Request → Option (String × Except RequestError Reply)
  | .detect content => some (content, .ok (.format (Schematic.detect (stack.below 1) content)))
  | .parse content => some (content, (ParseReply.ofText stack content).map .document)
  | .generate content => some (content, .ok (.rendering (render (stack.below 1) content)))
  | _ => none

/-- A request that leaves the options as they are, whatever they are. -/
def Request.IsQuiet : Request → Prop
  | .start file? limit? => ¬Succeeds (Options.load (stack.room 1) file? limit?)
  | .stop => False
  | _ => True

/-- Options that a start among some requests loaded, with only quiet requests behind it. -/
def IsInForce (requests : List Request) (options : Value) : Prop :=
  ∃ front file? limit? behind, requests = front ++ .start file? limit? :: behind ∧
    Options.load (stack.room 1) file? limit? = .ok options ∧
      ∀ request ∈ behind, request.IsQuiet stack

end Requests

variable {stack : Stack}

theorem not_isInForce_nil (options : Value) : ¬IsInForce stack [] options := by
  rintro ⟨front, file?, limit?, behind, h, -⟩
  simp at h

/-- The last request puts options in force, or it is quiet and they were in force before. -/
theorem isInForce_append_singleton {requests : List Request} {request : Request}
    {options : Value} : IsInForce stack (requests ++ [request]) options ↔
      (∃ file? limit?, request = .start file? limit? ∧
        Options.load (stack.room 1) file? limit? = .ok options) ∨
        (request.IsQuiet stack ∧ IsInForce stack requests options) := by
  constructor
  · rintro ⟨front, file?, limit?, behind, heq, hload, hquiet⟩
    rcases List.eq_nil_or_concat behind with rfl | ⟨behind, last, rfl⟩
    · obtain ⟨-, hlast⟩ := List.append_inj' heq rfl
      exact .inl ⟨file?, limit?, (List.cons.inj hlast).1, hload⟩
    · rw [List.concat_eq_append, List.forall_mem_append, List.forall_mem_singleton] at hquiet
      rw [List.concat_eq_append, ← List.cons_append, ← List.append_assoc] at heq
      obtain ⟨hfront, hlast⟩ := List.append_inj' heq rfl
      obtain rfl := (List.cons.inj hlast).1
      exact .inr ⟨hquiet.2, front, file?, limit?, behind, hfront, hload, hquiet.1⟩
  · rintro (⟨file?, limit?, rfl, hload⟩ | ⟨hlast, front, file?, limit?, behind, rfl, hload, hquiet⟩)
    · exact ⟨requests, file?, limit?, [], rfl, hload, List.forall_mem_nil _⟩
    · refine ⟨front, file?, limit?, behind ++ [request], by simp, hload, ?_⟩
      exact List.forall_mem_append.mpr ⟨hquiet, List.forall_mem_singleton.mpr hlast⟩

namespace Service

variable {s : Service}

theorem ofOptions_eq_some_iff {loaded options : Value} :
    ofOptions loaded = some options ↔ options ≠ .null ∧ loaded = options := by
  cases loaded with
  | null =>
    refine iff_of_false (fun h => by cases h) ?_
    rintro ⟨hne, rfl⟩
    exact hne rfl
  | _ =>
    simp only [ofOptions, Option.some.injEq]
    refine ⟨?_, And.right⟩
    rintro rfl
    exact ⟨by simp, rfl⟩

/-! ## One request -/

theorem handle_start_of_load_eq_ok {file? limit? : Option String} {loaded : Value}
    (h : Options.load (stack.room 1) file? limit? = .ok loaded) :
    (s.handle stack (.start file? limit?)).1 = ⟨ofOptions loaded, s.starts + 1⟩ := by
  rw [handle, start, h]

/-- A start without options changes nothing. -/
theorem handle_start_of_load_eq_error {file? limit? : Option String} {e : OptionsError}
    (h : Options.load (stack.room 1) file? limit? = .error e) :
    s.handle stack (.start file? limit?) = (s, .error (.options e)) := by
  rw [handle, start, h]

theorem handle_stop_of_starts_pos (h : 0 < s.starts) :
    s.handle stack .stop = (⟨none, s.starts - 1⟩, .ok .stopped) := by
  rw [handle, stop]
  cases hstarts : s.starts with
  | zero => omega
  | succ n => rfl

/-- A stop without a start changes nothing. -/
theorem handle_stop_of_starts_eq_zero (h : s.starts = 0) :
    s.handle stack .stop = (s, .error .notStarted) := by
  rw [handle, stop, h]

/-- Nothing but starts and stops changes a service. -/
theorem handle_of_isQuiet {request : Request} (h : request.IsQuiet stack) :
    (s.handle stack request).1 = s := by
  cases request with
  | start file? limit? =>
    cases hload : Options.load (stack.room 1) file? limit? with
    | ok loaded => exact absurd ⟨loaded, hload⟩ h
    | error e => rw [handle_start_of_load_eq_error hload]
  | stop => exact h.elim
  | _ => rfl

/-- A request about a text is answered by checking its size first. -/
theorem handle_of_onText? {request : Request} {content : String}
    {work : Except RequestError Reply} (h : request.onText? stack = some (content, work)) :
    s.handle stack request = (s, s.checkContent content >>= fun _ => work) := by
  cases request with
  | detect text =>
    obtain ⟨rfl, rfl⟩ := Prod.mk.inj (Option.some.inj h)
    rfl
  | parse text =>
    obtain ⟨rfl, rfl⟩ := Prod.mk.inj (Option.some.inj h)
    rw [handle, reply]
    · cases ParseReply.ofText stack text <;> rfl
    all_goals simp
  | generate text =>
    obtain ⟨rfl, rfl⟩ := Prod.mk.inj (Option.some.inj h)
    rfl
  | _ => cases h

theorem checkContent_eq_ok_iff {content : String} : s.checkContent content = .ok () ↔
    ∃ options, s.options? = some options ∧ Options.Admits options content := by
  unfold checkContent options
  cases s.options? with
  | none =>
    refine iff_of_false (fun h => by cases h) ?_
    rintro ⟨options, h, -⟩
    cases h
  | some options =>
    have hcheck : ((Options.checkSize content options).mapError RequestError.options) = .ok () ↔
        Options.Admits options content := mapError_eq_ok_iff.trans Options.checkSize_eq_ok_iff
    refine hcheck.trans ⟨fun h => ⟨options, rfl, h⟩, ?_⟩
    rintro ⟨_, hoptions, hadmits⟩
    exact Option.some.inj hoptions ▸ hadmits

/-- What a request may change and answer, in a service and for the service after it. -/
structure IsStep (stack : Stack) (s : Service) (request : Request)
    (answer : Except RequestError Reply) (next : Service) : Prop where
  /-- Only a start that loads options and a stop of a start change the options. -/
  changed : next.options? ≠ s.options? →
    (∃ file? limit? loaded, request = .start file? limit? ∧
      Options.load (stack.room 1) file? limit? = .ok loaded) ∨ (request = .stop ∧ 0 < s.starts)
  started : ∀ file? limit? loaded, request = .start file? limit? →
    Options.load (stack.room 1) file? limit? = .ok loaded →
      next = ⟨ofOptions loaded, s.starts + 1⟩
  notStarted : ∀ file? limit? e, request = .start file? limit? →
    Options.load (stack.room 1) file? limit? = .error e →
      next = s ∧ answer = .error (.options e)
  stopped : request = .stop → 0 < s.starts → next = ⟨none, s.starts - 1⟩
  /-- A text is answered with a result only under options that are a mapping and admit it. -/
  admitted : ∀ content work reply, request.onText? stack = some (content, work) →
    answer = .ok reply → ∃ options, s.options? = some options ∧ Options.Admits options content
  /-- A text that is admitted is answered for what it is. -/
  answered : ∀ content work options, request.onText? stack = some (content, work) →
    s.options? = some options → Options.Admits options content → answer = work

/-- Every request is a step. -/
theorem isStep_handle (stack : Stack) (s : Service) (request : Request) :
    IsStep stack s request (s.handle stack request).2 (s.handle stack request).1 where
  changed := by
    intro hne
    by_cases hquiet : request.IsQuiet stack
    · exact absurd (congrArg options? (handle_of_isQuiet hquiet)) hne
    · cases request with
      | start file? limit? =>
        obtain ⟨loaded, hload⟩ := not_not.mp hquiet
        exact .inl ⟨file?, limit?, loaded, rfl, hload⟩
      | stop =>
        refine .inr ⟨rfl, Nat.pos_of_ne_zero fun hstarts => hne ?_⟩
        rw [handle_stop_of_starts_eq_zero hstarts]
      | _ => exact absurd trivial hquiet
  started := by
    rintro file? limit? loaded rfl hload
    exact handle_start_of_load_eq_ok hload
  notStarted := by
    rintro file? limit? e rfl hload
    exact Prod.mk.inj (handle_start_of_load_eq_error hload)
  stopped := by
    rintro rfl hstarts
    rw [handle_stop_of_starts_pos hstarts]
  admitted := by
    intro content work reply htext hreply
    rw [handle_of_onText? htext] at hreply
    obtain ⟨_, hcheck, -⟩ := exists_of_bind_eq_ok hreply
    exact checkContent_eq_ok_iff.mp hcheck
  answered := by
    intro content work options htext hoptions hadmits
    rw [handle_of_onText? htext]
    rw [checkContent_eq_ok_iff.mpr ⟨options, hoptions, hadmits⟩]
    rfl

/-! ## Requests in a row -/

/-- A service after requests one after the other. -/
def after (stack : Stack) (s : Service) (requests : List Request) : Service :=
  requests.foldl (fun s request => (s.handle stack request).1) s

theorem after_append_singleton (s : Service) (requests : List Request) (request : Request) :
    s.after stack (requests ++ [request]) = ((s.after stack requests).handle stack request).1 := by
  rw [after, List.foldl_append]
  rfl

theorem run_append (s : Service) (front behind : List Request) :
    s.run stack (front ++ behind) =
      s.run stack front ++ (s.after stack front).run stack behind := by
  induction front generalizing s with
  | nil => rfl
  | cons request front ih =>
    show (s.handle stack request).2 :: (s.handle stack request).1.run stack (front ++ behind) = _
    rw [ih]
    rfl

/-- Without a start that has not been ended there are no options. -/
theorem options?_eq_none_of_starts_eq_zero (requests : List Request) :
    (after stack {} requests).starts = 0 → (after stack {} requests).options? = none := by
  induction requests using List.reverseRecOn with
  | nil => exact fun _ => rfl
  | append_singleton requests request ih =>
    rw [after_append_singleton]
    by_cases hquiet : request.IsQuiet stack
    · rwa [handle_of_isQuiet hquiet]
    · cases request with
      | start file? limit? =>
        obtain ⟨loaded, hload⟩ := not_not.mp hquiet
        rw [handle_start_of_load_eq_ok hload]
        exact fun h => absurd h (Nat.succ_ne_zero _)
      | stop =>
        -- A stop leaves no options behind, or there have been none.
        rcases Nat.eq_zero_or_pos (after stack {} requests).starts with hstarts | hstarts
        · rwa [handle_stop_of_starts_eq_zero hstarts]
        · rw [handle_stop_of_starts_pos hstarts]
          exact fun _ => rfl
      | _ => exact absurd trivial hquiet

/-- The options after a run are those in force; null counts as none. -/
theorem options?_after_iff (requests : List Request) (options : Value) :
    (after stack {} requests).options? = some options ↔
      options ≠ .null ∧ IsInForce stack requests options := by
  induction requests using List.reverseRecOn with
  | nil => exact iff_of_false (fun h => by cases h) fun h => not_isInForce_nil options h.2
  | append_singleton requests request ih =>
    rw [after_append_singleton, isInForce_append_singleton]
    by_cases hquiet : request.IsQuiet stack
    · rw [handle_of_isQuiet hquiet, ih]
      have hload : ¬∃ file? limit?, request = .start file? limit? ∧
          Options.load (stack.room 1) file? limit? = .ok options := by
        rintro ⟨file?, limit?, rfl, hload⟩
        exact hquiet ⟨options, hload⟩
      simp [hload, hquiet]
    · cases request with
      | start file? limit? =>
        obtain ⟨loaded, hload⟩ := not_not.mp hquiet
        rw [handle_start_of_load_eq_ok hload, ofOptions_eq_some_iff]
        simp [hquiet, hload]
      | stop =>
        have hnone : ((after stack {} requests).handle stack .stop).1.options? = none := by
          rcases Nat.eq_zero_or_pos (after stack {} requests).starts with hstarts | hstarts
          · rw [handle_stop_of_starts_eq_zero hstarts]
            exact options?_eq_none_of_starts_eq_zero requests hstarts
          · rw [handle_stop_of_starts_pos hstarts]
        simp [hnone, hquiet]
      | _ => exact absurd trivial hquiet

/-- A stop removes the options, also those of a start that has not been ended. -/
example : let s := after .standard {} [.start none none, .start none none, .stop]
    s.options?.isNone = true ∧ s.starts = 1 := by decide +kernel

/-- In every run of a service that begins without options, every request is a step from the service
that the requests before it have left, and the options of that service are those in force. -/
theorem isStep_run (stack : Stack) (before : List Request) (request : Request)
    (behind : List Request) :
    (∃ answer, run stack {} (before ++ request :: behind) =
        run stack {} before ++ answer :: (after stack {} (before ++ [request])).run stack behind ∧
      IsStep stack (after stack {} before) request answer (after stack {} (before ++ [request]))) ∧
    ∀ options, (after stack {} before).options? = some options ↔
      options ≠ .null ∧ IsInForce stack before options := by
  refine ⟨⟨((after stack {} before).handle stack request).2, ?_, ?_⟩, options?_after_iff before⟩
  · rw [run_append, after_append_singleton]
    rfl
  · rw [after_append_singleton]
    exact isStep_handle stack _ request

end Service

end Schematic
