import Schematic.Proofs.Diagram.Word
import Schematic.Proofs.Text.Search

/-!
# Words of an identifier

An identifier is made of words, the runs of letters, digits and hyphens in a name. All else between
them becomes one underscore, so an identifier tells the words of its name and nothing more. Only at
the front is a mark put, where the identifier would begin with no letter or would be a reserved
word.

## Main definitions

- `Identifier.words` — the words of a name
- `Identifier.joined` — words with underscores between them
- `Identifier.marked` — words with the mark at their front, if they need one

## Main statements

- `squeeze_eq_joined` — a squeezed name is its words
- `ofChars_eq_joined` — and its identifier is its marked words
- `eq_of_marked_append_toDigits` — numbers at the end of names tell their identifiers apart
- `identifier_eq_iff` — the names with one identifier
- `identifier_identifier` — an identifier is its own identifier
-/

namespace Schematic

namespace Identifier

/-- A character as it stands in an identifier. -/
def replaced (c : Char) : Char :=
  if isAllowed c then c else '_'

/-- The words between underscores. -/
def pieces (cs : List Char) : List (List Char) :=
  (Text.splitAtChar '_' cs).filter fun word => !word.isEmpty

/-- The words of a name. -/
def words (cs : List Char) : List (List Char) :=
  pieces (cs.map replaced)

/-- Words with underscores between them. -/
def joined (ws : List (List Char)) : List Char :=
  List.intercalate ['_'] ws

/-- Words as an identifier has them: a letter is put before what begins with none, and a word
before one that is reserved. -/
def marked : List (List Char) → List (List Char)
  | [] => [['n']]
  | first :: more =>
    if (first.head?.any Char.isAlpha) = false then ('n' :: first) :: more
    else if more = [] ∧ isReserved first then [['n'], first]
    else first :: more

/-! ## Joined words -/

@[simp] theorem joined_nil : joined [] = [] := rfl

@[simp] theorem joined_singleton (word : List Char) : joined [word] = word :=
  List.intercalate_singleton

theorem joined_cons_cons (first second : List Char) (ws : List (List Char)) :
    joined (first :: second :: ws) = first ++ '_' :: joined (second :: ws) := by
  rw [joined, List.intercalate_cons_cons, List.append_assoc]
  rfl

theorem joined_cons_left (c : Char) (word : List Char) (ws : List (List Char)) :
    joined ((c :: word) :: ws) = c :: joined (word :: ws) := by
  cases ws with
  | nil => rw [joined_singleton, joined_singleton]
  | cons second ws => rw [joined_cons_cons, joined_cons_cons, List.cons_append]

/-- Joined words are found again between the underscores. -/
theorem splitAtChar_joined {ws : List (List Char)} (hne : ws ≠ [])
    (h : ∀ word ∈ ws, '_' ∉ word) : Text.splitAtChar '_' (joined ws) = ws := by
  induction ws with
  | nil => exact absurd rfl hne
  | cons first ws ih =>
    have hfirst := h first List.mem_cons_self
    cases ws with
    | nil => rw [joined_singleton, Text.splitAtChar_of_not_mem hfirst]
    | cons second ws =>
      rw [joined_cons_cons, Text.splitAtChar_append hfirst,
        ih (List.cons_ne_nil _ _) fun word hword => h word (List.mem_cons_of_mem _ hword)]

theorem joined_inj {ws vs : List (List Char)} (hws : ws ≠ []) (hvs : vs ≠ [])
    (hw : ∀ word ∈ ws, '_' ∉ word) (hv : ∀ word ∈ vs, '_' ∉ word) (h : joined ws = joined vs) :
    ws = vs := by
  rw [← splitAtChar_joined hws hw, h, splitAtChar_joined hvs hv]

/-! ## The words of a name -/

theorem pieces_append_underscore (cs ds : List Char) :
    pieces (cs ++ '_' :: ds) = pieces cs ++ pieces ds := by
  rw [pieces, Text.splitAtChar_append_sep, List.filter_append]
  rfl

theorem pieces_underscore (cs : List Char) : pieces ('_' :: cs) = pieces cs :=
  pieces_append_underscore [] cs

theorem underscore_not_mem_of_mem_pieces {cs word : List Char} (h : word ∈ pieces cs) :
    '_' ∉ word :=
  Text.sep_not_mem_of_mem_splitAtChar (List.mem_filter.mp h).1

theorem ne_nil_of_mem_pieces {cs word : List Char} (h : word ∈ pieces cs) : word ≠ [] := by
  have hkept := (List.mem_filter.mp h).2
  rintro rfl
  cases hkept

/-- A character that becomes an underscore parts words. -/
theorem words_append_of_replaced {c : Char} (hc : replaced c = '_') (cs ds : List Char) :
    words (cs ++ c :: ds) = words cs ++ words ds := by
  rw [words, List.map_append, List.map_cons, hc, pieces_append_underscore]
  rfl

/-- The words of two names with an underscore between them. -/
theorem words_append_underscore (cs ds : List Char) :
    words (cs ++ '_' :: ds) = words cs ++ words ds :=
  words_append_of_replaced (by decide) cs ds

/-! ## Squeezing -/

/-- Remove underscores at the end. -/
def trimEnd (cs : List Char) : List Char :=
  (cs.reverse.dropWhile (· == '_')).reverse

theorem trimEnd_cons (c : Char) (cs : List Char) :
    trimEnd (c :: cs) = if trimEnd cs = [] ∧ c = '_' then [] else c :: trimEnd cs := by
  rw [trimEnd, trimEnd, List.reverse_cons, List.dropWhile_append]
  by_cases hrest : cs.reverse.dropWhile (· == '_') = []
  · by_cases hc : c = '_' <;> simp [hrest, hc]
  · simp [hrest]

/-- The words between underscores, and one of the underscores in front of them. -/
def led (cs : List Char) : List Char :=
  if cs.head? = some '_' ∧ pieces cs ≠ [] then '_' :: joined (pieces cs) else joined (pieces cs)

theorem led_cons {c : Char} (hc : c ≠ '_') (cs : List Char) :
    led (c :: cs) = joined (pieces (c :: cs)) := by
  simp [led, hc]

theorem joined_eq_nil {ws : List (List Char)} (h : ∀ word ∈ ws, word ≠ []) :
    joined ws = [] ↔ ws = [] := by
  cases ws with
  | nil => simp
  | cons first ws =>
    have hfirst := h first List.mem_cons_self
    cases ws with
    | nil => simp [hfirst]
    | cons second ws => simp [joined_cons_cons]

/-- A character goes to the word that it stands in front of, and else is a word. -/
theorem joined_pieces_cons {c : Char} (hc : c ≠ '_') (cs : List Char) :
    joined (pieces (c :: cs)) = c :: led cs := by
  cases cs with
  | nil => simp [pieces, led, Text.splitAtChar, hc]
  | cons d cs =>
    by_cases hd : d = '_'
    · have hwords : pieces (c :: '_' :: cs) = [c] :: pieces cs := by
        simp [pieces, Text.splitAtChar, hc]
      rw [hd, hwords, led, pieces_underscore]
      cases hrest : pieces cs with
      | nil => simp
      | cons word ws => simp [joined_cons_cons]
    · obtain ⟨piece, more, hpieces⟩ :=
        List.exists_cons_of_ne_nil (Text.splitAtChar_ne_nil '_' cs)
      have hwords : pieces (d :: cs) = (d :: piece) :: more.filter fun word => !word.isEmpty := by
        simp [pieces, Text.splitAtChar, hd, hpieces]
      have hlonger : pieces (c :: d :: cs) =
          (c :: d :: piece) :: more.filter fun word => !word.isEmpty := by
        simp [pieces, Text.splitAtChar, hc, hd, hpieces]
      rw [led_cons hd, hwords, hlonger, joined_cons_left]

/-- Of every run of underscores one is left, and none at the end. -/
theorem trimEnd_collapse (cs : List Char) : trimEnd (collapse cs) = led cs := by
  fun_induction collapse cs with
  | case1 => rfl
  | case2 c rest h ih =>
    obtain ⟨rfl, hrest⟩ := h
    rw [ih, led, led, pieces_underscore, hrest]
    rfl
  | case3 c rest h ih =>
    rw [trimEnd_cons, ih]
    by_cases hc : c = '_'
    · have hrest : rest.head? ≠ some '_' := fun hrest => h ⟨hc, hrest⟩
      have hjoined : led rest = joined (pieces rest) := by simp [led, hrest]
      have hnil : joined (pieces rest) = [] ↔ pieces rest = [] :=
        joined_eq_nil fun word => ne_nil_of_mem_pieces
      rw [hjoined, hc, led, pieces_underscore]
      by_cases hpieces : pieces rest = [] <;> simp [hnil, hpieces]
    · rw [led_cons hc, joined_pieces_cons hc]
      simp [hc]

theorem dropWhile_collapse (cs : List Char) :
    (collapse cs).dropWhile (· == '_') = collapse (cs.dropWhile (· == '_')) := by
  fun_induction collapse cs with
  | case1 => rfl
  | case2 c rest h ih =>
    rw [ih, h.1, List.dropWhile_cons_of_pos rfl]
  | case3 c rest h ih =>
    by_cases hc : c = '_'
    · rw [hc, List.dropWhile_cons_of_pos rfl, List.dropWhile_cons_of_pos rfl, ih]
    · simp [hc, collapse]

theorem led_dropWhile (cs : List Char) :
    led (cs.dropWhile (· == '_')) = joined (pieces cs) := by
  induction cs with
  | nil => rfl
  | cons c cs ih =>
    by_cases hc : c = '_'
    · rw [hc, List.dropWhile_cons_of_pos rfl, ih, pieces_underscore]
    · rw [List.dropWhile_cons_of_neg (by simpa using hc), led_cons hc]

/-- A squeezed name is its words. -/
theorem squeeze_eq_joined (cs : List Char) : squeeze cs = joined (words cs) := by
  show trimEnd ((collapse (cs.map replaced)).dropWhile (· == '_')) = _
  rw [dropWhile_collapse, trimEnd_collapse, led_dropWhile]
  rfl

/-! ## Marks -/

/-- No reserved word is made of several words. -/
theorem isReserved_joined (first : List Char) (more : List (List Char)) :
    isReserved (joined (first :: more)) = true ↔ more = [] ∧ isReserved first = true := by
  cases more with
  | nil => simp
  | cons second more =>
    have hplain : ∀ word ∈ reserved, '_' ∉ word.toList := by decide
    simp only [reduceCtorEq, false_and, iff_false]
    intro h
    -- Changing the case leaves the underscore as it is.
    have hlower : '_' ∈ (joined (first :: second :: more)).map Char.toLower := by
      rw [joined_cons_cons]
      exact List.mem_map.mpr ⟨'_', by simp, rfl⟩
    apply hplain _ (List.contains_iff_mem.mp h)
    rwa [String.toList_ofList]

/-- An identifier is the marked words of its name. -/
theorem ofChars_eq_joined (cs : List Char) : ofChars cs = joined (marked (words cs)) := by
  have hne : ∀ word ∈ words cs, word ≠ [] := fun word => ne_nil_of_mem_pieces
  rw [ofChars, squeeze_eq_joined]
  cases hwords : words cs with
  | nil => simp [marked]
  | cons first more =>
    rw [hwords] at hne
    have hhead : (joined (first :: more)).head? = first.head? := by
      obtain ⟨c, first, rfl⟩ := List.exists_cons_of_ne_nil (hne first List.mem_cons_self)
      rw [joined_cons_left]
      rfl
    -- Both sides ask for the first letter, and then for a single reserved word.
    by_cases halpha : first.head?.any Char.isAlpha = false
    · simp only [marked, hhead, halpha, if_true, joined_cons_left]
    · by_cases hreserved : more = [] ∧ isReserved first = true
      · have hmarked : marked (first :: more) = [['n'], first] := by
          rw [marked, if_neg halpha, if_pos hreserved]
        rw [hmarked, hhead, if_neg halpha, if_pos ((isReserved_joined first more).mpr hreserved),
          hreserved.1, joined_cons_cons, joined_singleton]
        rfl
      · have hmarked : marked (first :: more) = first :: more := by
          rw [marked, if_neg halpha, if_neg hreserved]
        rw [hmarked, hhead, if_neg halpha,
          if_neg fun h => hreserved ((isReserved_joined first more).mp h)]

theorem marked_ne_nil (ws : List (List Char)) : marked ws ≠ [] := by
  unfold marked
  split
  · simp
  · split
    · simp
    · split <;> simp

theorem underscore_not_mem_of_mem_marked {ws : List (List Char)} (h : ∀ word ∈ ws, '_' ∉ word) :
    ∀ word ∈ marked ws, '_' ∉ word := by
  unfold marked
  split
  · simp
  · next first more =>
    obtain ⟨hfirst, hmore⟩ := List.forall_mem_cons.mp h
    split
    · exact List.forall_mem_cons.mpr ⟨by simp [hfirst], hmore⟩
    · split
      · simp [hfirst]
      · exact h

theorem ne_nil_of_mem_marked {ws : List (List Char)} (h : ∀ word ∈ ws, word ≠ []) :
    ∀ word ∈ marked ws, word ≠ [] := by
  unfold marked
  split
  · simp
  · next first more =>
    obtain ⟨hfirst, hmore⟩ := List.forall_mem_cons.mp h
    split
    · exact List.forall_mem_cons.mpr ⟨List.cons_ne_nil _ _, hmore⟩
    · split
      · simp [hfirst]
      · exact h

/-- Words that are marked need no mark. -/
theorem marked_marked (ws : List (List Char)) : marked (marked ws) = marked ws := by
  have hn : Char.isAlpha 'n' = true := by decide
  cases ws with
  | nil => decide
  | cons first more =>
    by_cases halpha : (first.head?.any Char.isAlpha) = false
    · have hreserved : isReserved ('n' :: first) = false := isReserved_cons_n first
      simp [marked, halpha, hreserved, hn]
    · by_cases hreserved : more = [] ∧ isReserved first = true
      · simp [marked, halpha, hreserved, hn]
      · simp [marked, halpha, hreserved]

/-! ## Names that end in a word -/

/-- A word of allowed characters is the one word of itself. -/
theorem words_of_forall {word : List Char} (hne : word ≠ []) (hplain : '_' ∉ word)
    (hallowed : ∀ c ∈ word, isAllowed c = true) : words word = [word] := by
  have hreplaced : word.map replaced = word := by
    refine (List.map_congr_left fun c hc => ?_).trans (List.map_id _)
    exact if_pos (hallowed c hc)
  rw [words, hreplaced, pieces, Text.splitAtChar_of_not_mem hplain]
  simpa using hne

/-- What follows an underscore at the end of a name is its last word. -/
theorem words_append_word {word : List Char} (hne : word ≠ []) (hplain : '_' ∉ word)
    (hallowed : ∀ c ∈ word, isAllowed c = true) (cs : List Char) :
    words (cs ++ '_' :: word) = words cs ++ [word] := by
  rw [words_append_underscore, words_of_forall hne hplain hallowed]

theorem isAllowed_of_mem_toDigits {n : Nat} {c : Char} (h : c ∈ Nat.toDigits 10 n) :
    isAllowed c = true := by
  have hdigit := Nat.isDigit_of_mem_toDigits (by decide) (by decide) h
  simp [isAllowed, Char.isAlphanum, hdigit]

/-- The digits tell the number that they are of. -/
theorem toDigits_injective : Function.Injective (Nat.toDigits 10) := by
  intro m n h
  have hdigits := congrArg (Nat.ofDigitChars 10 · 0) h
  simpa only [Nat.ofDigitChars_ten_toDigits] using hdigits

/-- A number at the end of a name is its last word. -/
theorem words_append_toDigits (cs : List Char) (n : Nat) :
    words (cs ++ '_' :: Nat.toDigits 10 n) = words cs ++ [Nat.toDigits 10 n] :=
  words_append_word Nat.toDigits_ne_nil Nat.underscore_not_in_toDigits
    (fun _ => isAllowed_of_mem_toDigits) cs

/-- The last word stays as it is, unless it is the only one and begins with no letter. -/
theorem getLast?_marked_append (ws : List (List Char)) (word : List Char) :
    (marked (ws ++ [word])).getLast? = some word ∨
      (word.head?.any Char.isAlpha) = false ∧
        (marked (ws ++ [word])).getLast? = some ('n' :: word) := by
  cases ws with
  | nil =>
    by_cases halpha : (word.head?.any Char.isAlpha) = false
    · exact .inr ⟨halpha, by simp [marked, halpha]⟩
    · by_cases hreserved : isReserved word = true
      · exact .inl (by simp [marked, halpha, hreserved])
      · exact .inl (by simp [marked, halpha, hreserved])
  | cons first more =>
    -- The mark is put at the front, and the last word stands further behind.
    have hlast (first : List Char) : (first :: (more ++ [word])).getLast? = some word := by
      rw [← List.cons_append, List.getLast?_concat]
    rw [List.cons_append, marked]
    by_cases halpha : (first.head?.any Char.isAlpha) = false
    · rw [if_pos halpha]
      exact .inl (hlast _)
    · rw [if_neg halpha, if_neg (by simp)]
      exact .inl (hlast _)

/-- A last word that begins with no letter makes another identifier. -/
theorem marked_append_ne {word : List Char} (hne : word ≠ [])
    (halpha : (word.head?.any Char.isAlpha) = false) (ws : List (List Char)) :
    marked (ws ++ [word]) ≠ marked ws := by
  -- Only with a single reserved word in front of it the number of words is the same.
  cases ws with
  | nil => simp [marked, halpha, hne]
  | cons first more =>
    by_cases hfirst : (first.head?.any Char.isAlpha) = false
    · simp [marked, hfirst]
    · by_cases hreserved : more = [] ∧ isReserved first = true
      · have hword : word ≠ first := by
          rintro rfl
          exact hfirst halpha
        simp [marked, hfirst, hreserved, hword]
      · simp [marked, hfirst, hreserved]

/-- No number begins with another character than a digit. -/
theorem toDigits_ne_cons (n : Nat) {c : Char} (hc : c.isDigit = false) (word : List Char) :
    Nat.toDigits 10 n ≠ c :: word := by
  intro h
  have hdigit : c.isDigit = true :=
    Nat.isDigit_of_mem_toDigits (by decide) (by decide) (h ▸ List.mem_cons_self)
  rw [hc] at hdigit
  cases hdigit

/-- Names that end in different numbers have different identifiers. -/
theorem eq_of_marked_append_toDigits {ws vs : List (List Char)} {m n : Nat}
    (h : marked (ws ++ [Nat.toDigits 10 m]) = marked (vs ++ [Nat.toDigits 10 n])) : m = n := by
  have hlast := congrArg List.getLast? h
  have hn : Char.isDigit 'n' = false := by decide
  apply toDigits_injective
  rcases getLast?_marked_append ws (Nat.toDigits 10 m) with hm | ⟨-, hm⟩ <;>
    rcases getLast?_marked_append vs (Nat.toDigits 10 n) with hv | ⟨-, hv⟩ <;>
    rw [hm, hv] at hlast
  · exact Option.some.inj hlast
  · exact absurd (Option.some.inj hlast) (toDigits_ne_cons m hn _)
  · exact absurd (Option.some.inj hlast).symm (toDigits_ne_cons n hn _)
  · exact (List.cons.inj (Option.some.inj hlast)).2

/-- A name that ends in a number has another identifier than one that ends in a word. -/
theorem marked_append_toDigits_ne {ws vs : List (List Char)} {n : Nat} {c : Char}
    {word : List Char} (hletter : c.isAlpha = true) (hdigit : c.isDigit = false) (hc : c ≠ 'n') :
    marked (ws ++ [Nat.toDigits 10 n]) ≠ marked (vs ++ [c :: word]) := by
  intro h
  have hlast := congrArg List.getLast? h
  rcases getLast?_marked_append vs (c :: word) with hv | ⟨hfirst, -⟩
  · rcases getLast?_marked_append ws (Nat.toDigits 10 n) with hn | ⟨-, hn⟩
    · rw [hn, hv] at hlast
      exact toDigits_ne_cons n hdigit word (Option.some.inj hlast)
    · rw [hn, hv] at hlast
      exact hc (List.cons.inj (Option.some.inj hlast)).1.symm
  · simp [hletter] at hfirst

end Identifier

open Identifier

/-- Names have one identifier exactly if they have the same words, but for the marks. -/
theorem identifier_eq_iff (name other : String) : identifier name = identifier other ↔
    marked (words name.toList) = marked (words other.toList) := by
  have hplain (cs : List Char) : ∀ word ∈ marked (words cs), '_' ∉ word :=
    underscore_not_mem_of_mem_marked fun word => underscore_not_mem_of_mem_pieces
  rw [identifier, identifier, String.ofList_inj, ofChars_eq_joined, ofChars_eq_joined]
  constructor
  · exact joined_inj (marked_ne_nil _) (marked_ne_nil _) (hplain _) (hplain _)
  · exact congrArg joined

/-- Names that differ in characters that are replaced anyway have one identifier. -/
theorem identifier_congr {name other : String}
    (h : name.toList.map replaced = other.toList.map replaced) :
    identifier name = identifier other := by
  rw [identifier_eq_iff, words, words, h]

/-- The words of an identifier are those of its name, with the marks. -/
theorem words_identifier (name : String) :
    words (identifier name).toList = marked (words name.toList) := by
  have hnonempty : ∀ word ∈ marked (words name.toList), word ≠ [] :=
    ne_nil_of_mem_marked fun word => ne_nil_of_mem_pieces
  have hplain : ∀ word ∈ marked (words name.toList), '_' ∉ word :=
    underscore_not_mem_of_mem_marked fun word => underscore_not_mem_of_mem_pieces
  have hallowed : (identifier name).toList.map replaced = (identifier name).toList := by
    refine (List.map_congr_left fun c hc => ?_).trans (List.map_id _)
    exact if_pos ((isNodeId_identifier name).isAllowed c hc)
  rw [words, hallowed, identifier, String.toList_ofList, ofChars_eq_joined, pieces,
    splitAtChar_joined (marked_ne_nil _) hplain, List.filter_eq_self]
  intro word hword
  simpa using hnonempty word hword

/-- An identifier is its own identifier. -/
@[simp] theorem identifier_identifier (name : String) :
    identifier (identifier name) = identifier name := by
  rw [identifier_eq_iff, words_identifier, marked_marked]

end Schematic
