import Schematic.Proofs.Hcl.Matching

/-!
# The scan for braces, place by place

Matching braces works on lexemes, which are cut from what is left of a text. The same scan can be
told by places in the text. It holds the place that it has come to, the open braces and the pairs
that are closed. A literal and a comment are skipped in one step, any other character is a step of
its own.

Within a literal a backslash skips two places, also if there is only one left. So the reader of a
literal may leap over the end of the text, but then the end is where it stops. Every skip stops
behind its start and not behind the end of the text, so the scan goes forward with every step and
comes to the end of the text. It makes a step for each lexeme, and the pairs that it has at the end
are those of the lexemes.

## Main definitions

- `skip?` — where a literal or a comment ends that starts at a place
- `Scan`, `Scan.step?` — the state of the scan, and one step of it
- `Scan.behind` — the scan behind a lexeme
- `IsWellNested` — pairs of braces that are nested in each other or stand behind each other
- `IsForward` — skips and steps go forward and stay within the text

## Main statements

- `skip?_eq` — what is skipped is a literal or a comment
- `Scan.step?_eq`, `Scan.run_length` — a step is a lexeme, a run is all lexemes
- `isWellNested_bracePairs` — the pairs of every text are well nested, and the scan finds them
-/

namespace Schematic.Hcl

open Lexeme

/-! ## Skipping by places -/

/-- The place behind a string literal, for a reader that has come to a place inside of it. -/
def literalStop (cs : List Char) (place : Nat) : Nat :=
  match _h : cs[place]? with
  | none => cs.length
  | some c =>
    if c = '\\' then literalStop cs (place + 2)
    else if c = '"' then place + 1
    else if c = '\n' then place
    else literalStop cs (place + 1)
termination_by cs.length - place
decreasing_by
  all_goals
    have := (List.getElem?_eq_some_iff.mp _h).1
    omega

/-- The place of the first line feed from a place on, or the end of the text. -/
def feedStop (cs : List Char) (place : Nat) : Nat :=
  place + (cs.drop place).findIdx (· == '\n')

/-- The place behind the first closing mark of a comment from a place on, or the end of the
text. -/
def remarkStop (cs : List Char) (place : Nat) : Nat :=
  match _h : cs[place]? with
  | none => cs.length
  | some c =>
    if c = '*' ∧ cs[place + 1]? = some '/' then place + 2 else remarkStop cs (place + 1)
termination_by cs.length - place
decreasing_by
  have := (List.getElem?_eq_some_iff.mp _h).1
  omega

/-- The place where a comment ends that starts at a place. -/
def commentStop? (cs : List Char) (place : Nat) : Option Nat :=
  if cs[place]? = some '#' then some (feedStop cs place)
  else if cs[place]? = some '/' then
    if cs[place + 1]? = some '/' then some (feedStop cs place)
    else if cs[place + 1]? = some '*' then some (remarkStop cs (place + 2))
    else none
  else none

/-- The place where a literal or a comment ends that starts at a place. -/
def skip? (cs : List Char) (place : Nat) : Option Nat :=
  if cs[place]? = some '"' then some (literalStop cs (place + 1)) else commentStop? cs place

variable {cs rest : List Char} {place : Nat} {c : Char}

theorem getElem?_of_drop_eq (h : cs.drop place = c :: rest) : cs[place]? = some c := by
  rw [← List.head?_drop, h]
  rfl

theorem drop_succ_of_drop_eq (h : cs.drop place = c :: rest) : cs.drop (place + 1) = rest := by
  rw [← List.tail_drop, h]
  rfl

theorem drop_eq_of_getElem? (h : cs[place]? = some c) :
    cs.drop place = c :: cs.drop (place + 1) := by
  obtain ⟨hlt, rfl⟩ := List.getElem?_eq_some_iff.mp h
  exact List.drop_eq_getElem_cons hlt

/-- What a literal leaves of the text is what stands behind the place where it stops. -/
theorem literalStop_add (cs : List Char) (place : Nat) :
    literalStop cs place + (cutLiteral (cs.drop place)).2.length = cs.length := by
  fun_induction literalStop cs place with
  | case1 place h =>
    rw [List.drop_eq_nil_of_le (List.getElem?_eq_none_iff.mp h)]
    rfl
  | case2 place h ih =>
    rw [drop_eq_of_getElem? h]
    cases hrest : cs.drop (place + 1) with
    | nil =>
      -- The backslash is the last character, and the reader leaps over the end.
      have hnil : cs.drop (place + 2) = [] := by
        rw [List.drop_eq_nil_iff] at hrest ⊢
        omega
      rw [hnil] at ih
      exact ih
    | cons d rest =>
      rw [drop_succ_of_drop_eq hrest] at ih
      exact ih
  | case3 place h =>
    have hlt := (List.getElem?_eq_some_iff.mp h).1
    have hleft : (cutLiteral ('"' :: cs.drop (place + 1))).2 = cs.drop (place + 1) := rfl
    rw [drop_eq_of_getElem? h, hleft, List.length_drop]
    omega
  | case4 place h =>
    have hlt := (List.getElem?_eq_some_iff.mp h).1
    have hleft : (cutLiteral ('\n' :: cs.drop (place + 1))).2 = '\n' :: cs.drop (place + 1) := rfl
    rw [drop_eq_of_getElem? h, hleft, List.length_cons, List.length_drop]
    omega
  | case5 place c h hescape hquote hfeed ih =>
    rw [drop_eq_of_getElem? h, cutLiteral_cons hquote hfeed hescape]
    exact ih

-- A backslash at the end takes the reader two places on, but it stops at the end.
example : literalStop ['"', 'a', '\\'] 1 = 3 := by decide +kernel

theorem feedStop_add (h : place ≤ cs.length) :
    feedStop cs place + (cutLine (cs.drop place)).2.length = cs.length := by
  have hle := @List.findIdx_le_length _ (· == '\n') (cs.drop place)
  have hpred : (fun c : Char => !(c != '\n')) = (· == '\n') := by
    funext c
    exact Bool.not_not _
  rw [cutLine, List.dropWhile_eq_drop_findIdx_not, hpred, feedStop, List.length_drop,
    List.length_drop]
  rw [List.length_drop] at hle
  omega

theorem remarkStop_add (cs : List Char) (place : Nat) :
    remarkStop cs place + (cutRemark (cs.drop place)).2.length = cs.length := by
  fun_induction remarkStop cs place with
  | case1 place h =>
    rw [List.drop_eq_nil_of_le (List.getElem?_eq_none_iff.mp h)]
    rfl
  | case2 place c h hmark =>
    obtain ⟨rfl, hslash⟩ := hmark
    have hlt := (List.getElem?_eq_some_iff.mp hslash).1
    have hleft : (cutRemark ('*' :: '/' :: cs.drop (place + 2))).2 = cs.drop (place + 2) := rfl
    rw [drop_eq_of_getElem? h, drop_eq_of_getElem? hslash, hleft, List.length_drop]
    omega
  | case3 place c h hmark ih =>
    rw [drop_eq_of_getElem? h, cutRemark]
    · exact ih
    · rintro rest rfl hslash
      exact hmark ⟨rfl, getElem?_of_drop_eq hslash⟩

/-- What a comment leaves of the text is what stands behind the place where it stops. -/
theorem commentStop?_eq (cs : List Char) (place : Nat) :
    commentStop? cs place =
      (cutComment? (cs.drop place)).map fun cut => cs.length - cut.2.length := by
  generalize hdrop : cs.drop place = ds
  have hfirst : cs[place]? = ds[0]? := by rw [← hdrop, List.getElem?_drop, Nat.add_zero]
  have hsecond : cs[place + 1]? = ds[1]? := by rw [← hdrop, List.getElem?_drop]
  have hfeed (hne : ds ≠ []) : feedStop cs place = cs.length - (cutLine ds).2.length := by
    rw [← hdrop, Ne, List.drop_eq_nil_iff] at hne
    have hadd := @feedStop_add cs place (by omega)
    rw [hdrop] at hadd
    omega
  rw [commentStop?, hfirst, hsecond]
  fun_cases cutComment? ds with
  | case1 rest taken left hcut =>
    have hleft : (cutLine ('#' :: rest)).2 = (cutLine rest).2 := rfl
    simp [hfeed, hleft, hcut]
  | case2 rest taken left hcut =>
    have hleft : (cutLine ('/' :: '/' :: rest)).2 = (cutLine rest).2 := rfl
    simp [hfeed, hleft, hcut]
  | case3 rest taken left hcut =>
    have hadd := remarkStop_add cs (place + 2)
    have hrest : cs.drop (place + 2) = rest := by
      rw [← List.drop_drop, hdrop]
      rfl
    rw [hrest, hcut] at hadd
    have hstop : remarkStop cs (place + 2) = cs.length - left.length := Nat.eq_sub_of_add_eq hadd
    simp [hstop]
  | case4 ds hline hslash hremark =>
    cases ds with
    | nil => rfl
    | cons c rest =>
      have hc : c ≠ '#' := fun hc => hline rest (hc ▸ rfl)
      cases rest with
      | nil => simp [hc]
      | cons d rest =>
        by_cases hmark : c = '/'
        · subst hmark
          have hd : d ≠ '/' := fun hd => hslash rest (hd ▸ rfl)
          have hd' : d ≠ '*' := fun hd => hremark rest (hd ▸ rfl)
          simp [hd, hd']
        · simp [hc, hmark]

/-! ## Skips and lexemes -/

/-- Whether the scan skips a lexeme: it is a literal or a comment. -/
def Lexeme.isSkipped : Lexeme → Bool
  | literal _ => true
  | comment _ => true
  | _ => false

/-- The lexeme of a character that begins neither a literal nor a comment. -/
def Lexeme.ofChar (c : Char) : Lexeme :=
  if c = '{' then openBrace else if c = '}' then closeBrace else other c

theorem Lexeme.isSkipped_ofChar (c : Char) : (ofChar c).isSkipped = false := by
  unfold ofChar
  split
  · rfl
  · split <;> rfl

theorem next_eq_ofChar (hcut : cutComment? (c :: rest) = none) (hquote : c ≠ '"') :
    (next c rest).1 = ofChar c := by
  rw [next, hcut, ofChar]
  simp only [if_neg hquote]
  split
  · rfl
  · split <;> rfl

/-- A lexeme that is not skipped is a single character. -/
theorem next_of_isSkipped_eq_false (h : (next c rest).1.isSkipped = false) :
    (next c rest).1 = ofChar c := by
  cases hcut : cutComment? (c :: rest) with
  | some cut => simp [next, hcut, isSkipped] at h
  | none =>
    apply next_eq_ofChar hcut
    rintro rfl
    cases h

/-- The first lexeme behind a place and what is left behind it reach up to the end of the text. -/
theorem add_length_next (h : cs.drop place = c :: rest) :
    place + (next c rest).1.text.length + (next c rest).2.length = cs.length := by
  have hlt := (List.getElem?_eq_some_iff.mp (getElem?_of_drop_eq h)).1
  have hlength := congrArg List.length (h.trans (text_next_append c rest).symm)
  rw [List.length_drop, List.length_append] at hlength
  omega

/-- The place behind a lexeme stands behind the lexeme's own place, and not past the end of the
text. -/
theorem lt_and_le_next (h : cs.drop place = c :: rest) :
    place < place + (next c rest).1.text.length ∧
      place + (next c rest).1.text.length ≤ cs.length := by
  have hadd := add_length_next h
  obtain ⟨ds, htext⟩ := exists_text_next c rest
  rw [htext, List.length_cons] at hadd ⊢
  omega

theorem length_ofText_le (cs : List Char) : (ofText cs).length ≤ cs.length := by
  fun_induction ofText cs with
  | case1 => exact Nat.le_refl _
  | case2 c rest ih =>
    have hlt := length_next_lt c rest
    rw [List.length_cons]
    omega

/-- What the scan skips at a place is the lexeme that begins there, if it is one to be skipped. -/
theorem skip?_eq (h : cs.drop place = c :: rest) :
    skip? cs place = if (next c rest).1.isSkipped
      then some (place + (next c rest).1.text.length) else none := by
  have hadd := add_length_next h
  have hcomment := commentStop?_eq cs place
  rw [h] at hcomment
  rw [skip?, getElem?_of_drop_eq h]
  by_cases hquote : c = '"'
  · subst hquote
    have hliteral := literalStop_add cs (place + 1)
    rw [drop_succ_of_drop_eq h] at hliteral
    have hnext : next '"' rest = (literal ('"' :: (cutLiteral rest).1), (cutLiteral rest).2) := rfl
    rw [hnext] at hadd ⊢
    rw [if_pos rfl, isSkipped, if_pos rfl]
    exact congrArg some (Nat.add_right_cancel (hliteral.trans hadd.symm))
  · rw [if_neg fun hc => hquote (Option.some.inj hc), hcomment]
    cases hcut : cutComment? (c :: rest) with
    | some cut =>
      obtain ⟨taken, left⟩ := cut
      have hnext : next c rest = (comment taken, left) := by rw [next, hcut]
      rw [hnext] at hadd ⊢
      rw [isSkipped, if_pos rfl]
      exact congrArg some (Nat.sub_eq_of_eq_add hadd.symm)
    | none =>
      rw [next_eq_ofChar hcut hquote, isSkipped_ofChar]
      rfl

/-- A skip goes forward, and not past the end of the text. -/
theorem lt_and_le_of_skip? {stop : Nat} (h : skip? cs place = some stop) :
    place < stop ∧ stop ≤ cs.length := by
  cases hplace : cs[place]? with
  | none =>
    rw [skip?, commentStop?, hplace] at h
    cases h
  | some c =>
    have hdrop := drop_eq_of_getElem? hplace
    rw [skip?_eq hdrop] at h
    split at h
    · obtain rfl := Option.some.inj h
      exact lt_and_le_next hdrop
    · cases h

/-! ## Steps of the scan -/

/-- What the scan holds: the place that it has come to, the places of the open braces, the innermost
first, and the pairs in the order of closing. -/
structure Scan where
  place : Nat
  opened : List Nat
  pairs : List (Nat × Nat)

namespace Scan

/-- The scan before its first step. -/
def start : Scan :=
  ⟨0, [], []⟩

/-- One step of the scan, unless it is at the end of the text. -/
def step? (cs : List Char) (s : Scan) : Option Scan :=
  match cs[s.place]? with
  | none => none
  | some c =>
    match skip? cs s.place with
    | some stop => some ⟨stop, s.opened, s.pairs⟩
    | none =>
      if c = '{' then some ⟨s.place + 1, s.place :: s.opened, s.pairs⟩
      else if c = '}' then
        match s.opened with
        -- A closing brace with nothing open is passed over.
        | [] => some ⟨s.place + 1, [], s.pairs⟩
        | first :: outer => some ⟨s.place + 1, outer, s.pairs ++ [(first, s.place)]⟩
      else some ⟨s.place + 1, s.opened, s.pairs⟩

/-- The scan after a number of steps. -/
def run (cs : List Char) : Nat → Scan → Option Scan
  | 0, s => some s
  | count + 1, s => (s.step? cs).bind (run cs count)

/-- The scan behind a lexeme that begins at its place. -/
def behind (s : Scan) : Lexeme → Scan
  | openBrace => ⟨s.place + 1, s.place :: s.opened, s.pairs⟩
  | closeBrace =>
    match s.opened with
    | [] => ⟨s.place + 1, [], s.pairs⟩
    | first :: outer => ⟨s.place + 1, outer, s.pairs ++ [(first, s.place)]⟩
  | l => ⟨s.place + l.text.length, s.opened, s.pairs⟩

variable {s : Scan}

theorem place_behind (s : Scan) (l : Lexeme) : (s.behind l).place = s.place + l.text.length := by
  cases l with
  | closeBrace =>
    rw [behind]
    split <;> rfl
  | _ => rfl

/-- The pairs so far and those that are still to be found are the same behind a lexeme as in front
of it. -/
theorem pairs_behind (s : Scan) (l : Lexeme) (ls : List Lexeme) :
    (s.behind l).pairs ++ pairsFrom (s.behind l).place (s.behind l).opened ls =
      s.pairs ++ pairsFrom s.place s.opened (l :: ls) := by
  cases l with
  | openBrace => rfl
  | closeBrace =>
    obtain ⟨place, opened, pairs⟩ := s
    cases opened with
    | nil => rfl
    | cons first outer => simp [behind, pairsFrom]
  | literal t => rfl
  | comment t => rfl
  | other c => rfl

/-- A step of the scan goes over the lexeme that begins at its place. -/
theorem step?_eq (h : cs.drop s.place = c :: rest) :
    s.step? cs = some (s.behind (next c rest).1) := by
  rw [step?, getElem?_of_drop_eq h]
  simp only [skip?_eq h]
  cases hskipped : (next c rest).1.isSkipped with
  | true =>
    cases hl : (next c rest).1 with
    | literal t => rfl
    | comment t => rfl
    | _ =>
      rw [hl] at hskipped
      cases hskipped
  | false =>
    rw [next_of_isSkipped_eq_false hskipped, ofChar]
    by_cases hopen : c = '{'
    · simp only [if_pos hopen]
      rfl
    · simp only [if_neg hopen]
      by_cases hclose : c = '}'
      · simp only [if_pos hclose, behind]
        cases s.opened <;> rfl
      · simp only [if_neg hclose]
        rfl

/-- At the end of the text the scan stops. -/
theorem step?_eq_none (h : cs.length ≤ s.place) : s.step? cs = none := by
  rw [step?, List.getElem?_eq_none h]

/-- A step goes forward, and not past the end of the text. -/
theorem lt_and_le_of_step? {t : Scan} (h : s.step? cs = some t) :
    s.place < t.place ∧ t.place ≤ cs.length := by
  rcases Nat.lt_or_ge s.place cs.length with hlt | hge
  · have hdrop := List.drop_eq_getElem_cons hlt
    obtain rfl := Option.some.inj ((step?_eq hdrop).symm.trans h)
    rw [place_behind]
    exact lt_and_le_next hdrop
  · rw [step?_eq_none hge] at h
    cases h

/-! ## Runs of the scan -/

theorem place_foldl_behind (s : Scan) (ls : List Lexeme) :
    (ls.foldl behind s).place = s.place + width ls := by
  induction ls generalizing s with
  | nil => rfl
  | cons l ls ih => rw [List.foldl_cons, ih, place_behind, width_cons, Nat.add_assoc]

theorem pairs_foldl_behind (s : Scan) (ls : List Lexeme) :
    (ls.foldl behind s).pairs = s.pairs ++ pairsFrom s.place s.opened ls := by
  induction ls generalizing s with
  | nil => rw [pairsFrom, List.append_nil, List.foldl_nil]
  | cons l ls ih => rw [List.foldl_cons, ih, pairs_behind]

/-- The scan goes over the lexemes of the text behind its place, one in each step. -/
theorem run_length (h : ofText (cs.drop s.place) = ls) :
    run cs ls.length s = some (ls.foldl behind s) := by
  induction ls generalizing s with
  | nil => rfl
  | cons l ls ih =>
    cases hdrop : cs.drop s.place with
    | nil =>
      rw [hdrop, ofText_nil] at h
      cases h
    | cons c rest =>
      rw [hdrop, ofText_cons] at h
      obtain ⟨rfl, hrest⟩ := List.cons.inj h
      have hrest' : cs.drop (s.behind (next c rest).1).place = (next c rest).2 := by
        rw [place_behind, ← List.drop_drop, hdrop, ← text_next_append c rest]
        exact List.drop_left
      rw [List.length_cons, run, step?_eq hdrop, Option.bind_some, List.foldl_cons]
      exact ih (hrest' ▸ hrest)

/-- The scan comes to the end of the text, and then it has the pairs of the lexemes. -/
theorem exists_run_start (cs : List Char) : ∃ count ≤ cs.length, ∃ last : Scan,
    run cs count start = some last ∧ last.step? cs = none ∧ last.place = cs.length ∧
      last.pairs = bracePairs cs := by
  have hplace : ((ofText cs).foldl behind start).place = cs.length := by
    rw [place_foldl_behind, width_ofText]
    exact Nat.zero_add _
  have hpairs := pairs_foldl_behind start (ofText cs)
  exact ⟨_, length_ofText_le cs, _, run_length rfl, step?_eq_none (Nat.le_of_eq hplace.symm),
    hplace, hpairs⟩

end Scan

/-- The scan skips a literal or a comment, as it is read from its place on, and nothing else. Skips
and steps go forward, and none of them goes past the end of the text. -/
structure IsForward (cs : List Char) : Prop where
  skip_eq : ∀ place c rest, cs.drop place = c :: rest →
    skip? cs place = if (next c rest).1.isSkipped
      then some (place + (next c rest).1.text.length) else none
  skip : ∀ place stop, skip? cs place = some stop → place < stop ∧ stop ≤ cs.length
  step : ∀ s t : Scan, s.step? cs = some t → s.place < t.place ∧ t.place ≤ cs.length

theorem isForward (cs : List Char) : IsForward cs where
  skip_eq _ _ _ := skip?_eq
  skip _ _ := lt_and_le_of_skip?
  step _ _ := Scan.lt_and_le_of_step?

/-! ## Well-nested pairs -/

/-- Pairs of an opening brace and a closing brace behind it. No brace belongs to two pairs, and of
two pairs one stands behind the other or inside of it. -/
structure IsWellNested (cs : List Char) (pairs : List (Nat × Nat)) : Prop where
  openBrace_at : ∀ p ∈ pairs, cs[p.1]? = some '{'
  closeBrace_at : ∀ p ∈ pairs, cs[p.2]? = some '}'
  start_lt_stop : ∀ p ∈ pairs, p.1 < p.2
  nodup_starts : (pairs.map Prod.fst).Nodup
  nodup_stops : (pairs.map Prod.snd).Nodup
  nested : ∀ p ∈ pairs, ∀ q ∈ pairs, p.1 < q.1 → p.2 < q.1 ∨ q.2 < p.2

/-- The characters at the two places of a pair. -/
theorem getElem?_of_mem_bracePairs {p : Nat × Nat} (h : p ∈ bracePairs cs) :
    cs[p.1]? = some '{' ∧ cs[p.2]? = some '}' := by
  obtain ⟨start, stop⟩ := p
  obtain ⟨f, rfl, rfl⟩ := exists_factor_of_closingOf? (mem_bracePairs_iff.mp h)
  have hopen := f.text_eq
  have hclose := hopen
  rw [List.append_cons, ← List.append_assoc] at hclose
  constructor
  · exact getElem?_of_drop_eq ((congrArg (List.drop _) hopen).trans List.drop_left)
  · refine getElem?_of_drop_eq ((congrArg (List.drop _) hclose).trans (List.drop_left' ?_))
    rw [List.length_append, List.length_append]
    rfl

/-- The pairs are found in the order of closing, so no two of them have the same closing brace. -/
theorem nodup_stops (cs : List Char) : ((bracePairs cs).map Prod.snd).Nodup := by
  rw [List.Nodup, List.pairwise_map]
  exact (pairwise_bracePairs cs).imp fun hlies => Nat.ne_of_lt hlies.1

theorem lt_or_lt_of_mem_bracePairs {p q : Nat × Nat} (hp : p ∈ bracePairs cs)
    (hq : q ∈ bracePairs cs) (hlt : p.1 < q.1) : p.2 < q.1 ∨ q.2 < p.2 := by
  have hlies := uncrossed_of_closingOf? (mem_bracePairs_iff.mp hp) (mem_bracePairs_iff.mp hq)
    (Nat.ne_of_lt hlt)
  have hopen := lt_of_mem_bracePairs hq
  unfold Uncrossed at hlies
  omega

/-- The pairs of every text are well nested. The scan that finds them goes forward, never goes past
the end of the text, and comes to that end after no more steps than there are characters. -/
theorem isWellNested_bracePairs (cs : List Char) :
    IsWellNested cs (bracePairs cs) ∧ IsForward cs ∧
      ∃ count ≤ cs.length, ∃ last : Scan, Scan.run cs count .start = some last ∧
        last.step? cs = none ∧ last.place = cs.length ∧ last.pairs = bracePairs cs := by
  refine ⟨?_, isForward cs, Scan.exists_run_start cs⟩
  exact {
    openBrace_at := fun p hp => (getElem?_of_mem_bracePairs hp).1
    closeBrace_at := fun p hp => (getElem?_of_mem_bracePairs hp).2
    start_lt_stop := fun p hp => lt_of_mem_bracePairs hp
    nodup_starts := nodup_starts cs
    nodup_stops := nodup_stops cs
    nested := fun p hp q hq => lt_or_lt_of_mem_bracePairs hp hq }

-- The first closing brace has nothing to close, and the first opening brace stays open.
example : (Scan.run tangledBraces (ofText tangledBraces).length .start).map
    (fun last => (last.opened, last.pairs)) = some ([4], [(40, 41), (38, 43)]) := by
  decide +kernel

end Schematic.Hcl
