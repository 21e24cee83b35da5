import Schematic.Proofs.Json.Writer
import Schematic.Proofs.Number.Reading
import Schematic.Proofs.Number.Shortest
import Schematic.Proofs.Text.Search
import Schematic.Proofs.Text.Word
import Schematic.Value.Basic

/-!
# Words in JSON text

A word that is looked for in the JSON text of a tree stands there exactly if it stands in a string
or a key of the tree, as long as nothing else that is written can be part of it. Quotes, brackets,
commas and blanks are no letters; numbers and constants hold no underscore; and no escape holds the
letter that the word begins with, so no word begins in one, while a word that has begun would have
to go on with a backslash.

## Main definitions

- `IsResourceWord` — words that are part of nothing but strings and keys
- `HasText` — the strings and keys of a tree, at any depth

## Main statements

- `infix_flatMap_writeChar_iff` — escapes neither hide such a word nor make one
- `infix_write_iff` — where such a word stands in the JSON text of a tree
-/

namespace Schematic.Json

/-! ## Words -/

/-- A word of letters and underscores, with an underscore in it, that begins with the letter i. -/
structure IsResourceWord (word : List Char) : Prop where
  isIdentStart : ∀ c ∈ word, Text.isIdentStart c = true
  exists_cons : ∃ c rest, word = c :: rest ∧ (c = 'i' ∨ c = 'I')
  underscore_mem : '_' ∈ word

namespace IsResourceWord

variable {word : List Char}

theorem ne_nil (h : IsResourceWord word) : word ≠ [] := by
  obtain ⟨c, rest, rfl, -⟩ := h.exists_cons
  exact List.cons_ne_nil c rest

theorem not_mem (h : IsResourceWord word) {c : Char} (hc : Text.isIdentStart c = false) :
    c ∉ word := by
  intro hmem
  rw [h.isIdentStart c hmem] at hc
  cases hc

/-- No such word stands in a text without underscores. -/
theorem not_infix (h : IsResourceWord word) {cs : List Char} (hcs : '_' ∉ cs) :
    ¬ word <:+: cs :=
  fun hpart => hcs (hpart.subset h.underscore_mem)

/-- No such word begins in a part without its first letter. -/
theorem infix_append_iff (h : IsResourceWord word) {front : List Char} (hlower : 'i' ∉ front)
    (hupper : 'I' ∉ front) (back : List Char) : word <:+: front ++ back ↔ word <:+: back := by
  obtain ⟨c, rest, rfl, rfl | rfl⟩ := h.exists_cons
  · exact Text.infix_append_iff_of_head_not_mem hlower back
  · exact Text.infix_append_iff_of_head_not_mem hupper back

end IsResourceWord

/-! ## Escapes -/

theorem toNat_of_isIdentStart {c : Char} (h : Text.isIdentStart c = true) :
    0x41 ≤ c.toNat ∧ c.toNat ≤ 0x7A := by
  rcases Bool.or_eq_true_iff.mp h with h | h
  · have := Text.isAlpha_iff_toNat.mp h
    omega
  · rw [beq_iff_eq.mp h]
    decide

/-- Hexadecimal digits reach up to the letter f. -/
theorem not_mem_hex {c : Char} (hc : ∀ n < 16, Nat.digitChar n ≠ c) (width n : Nat) :
    c ∉ Text.hex width n := by
  induction width generalizing n with
  | zero => exact List.not_mem_nil
  | succ width ih =>
    have hlast := hc (n % 16) (Nat.mod_lt n (by decide))
    simp [Text.hex, ih, hlast.symm]

/-- Letters and underscores are written as they are. -/
theorem writeChar_of_isIdentStart {c : Char} (h : Text.isIdentStart c = true) :
    writeChar c = [c] := by
  have hne {d : Char} (hd : Text.isIdentStart d = false) : c ≠ d := Text.ne_of_class h hd
  obtain ⟨hlow, hhigh⟩ := toNat_of_isIdentStart h
  have hascii : (decide (0x20 ≤ c.toNat) && decide (c.toNat < 0x7F)) = true := by
    rw [Bool.and_eq_true, decide_eq_true_iff, decide_eq_true_iff]
    omega
  rw [writeChar, if_neg (hne (by decide)), if_neg (hne (by decide)), if_neg (hne (by decide)),
    if_neg (hne (by decide)), if_neg (hne (by decide)), if_neg (hne (by decide)),
    if_neg (hne (by decide))]
  simp only [hascii, if_true]

/-- An escape: a backslash and what does not hold the letter i. -/
def IsEscape (cs : List Char) : Prop :=
  ∃ rest, cs = '\\' :: rest ∧ 'i' ∉ rest ∧ 'I' ∉ rest

theorem isEscape_unitEscape (n : Nat) : IsEscape (unitEscape n) :=
  ⟨'u' :: Text.hex 4 n, rfl, by simp [not_mem_hex (by decide : ∀ n < 16, Nat.digitChar n ≠ 'i')],
    by simp [not_mem_hex (by decide : ∀ n < 16, Nat.digitChar n ≠ 'I')]⟩

theorem IsEscape.append {cs ds : List Char} (hc : IsEscape cs) (hd : IsEscape ds) :
    IsEscape (cs ++ ds) := by
  obtain ⟨rest, rfl, hlower, hupper⟩ := hc
  obtain ⟨more, rfl, hlower', hupper'⟩ := hd
  exact ⟨rest ++ '\\' :: more, rfl, by simp [hlower, hlower'], by simp [hupper, hupper']⟩

/-- A character stands for itself, or an escape stands for it. -/
theorem writeChar_cases (c : Char) : writeChar c = [c] ∨ IsEscape (writeChar c) := by
  have hshort {d : Char} (hlower : 'i' ≠ d) (hupper : 'I' ≠ d) : IsEscape ['\\', d] :=
    ⟨[d], rfl, by simpa using hlower, by simpa using hupper⟩
  unfold writeChar
  split_ifs
  · exact .inr (hshort (by decide) (by decide))
  · exact .inr (hshort (by decide) (by decide))
  · exact .inr (hshort (by decide) (by decide))
  · exact .inr (hshort (by decide) (by decide))
  · exact .inr (hshort (by decide) (by decide))
  · exact .inr (hshort (by decide) (by decide))
  · exact .inr (hshort (by decide) (by decide))
  · simp only []
    split_ifs
    · exact .inl rfl
    · exact .inr (isEscape_unitEscape _)
    · exact .inr ((isEscape_unitEscape _).append (isEscape_unitEscape _))

/-- No escape stands for a letter or an underscore. -/
theorem isIdentStart_eq_false_of_isEscape {c : Char} (h : IsEscape (writeChar c)) :
    Text.isIdentStart c = false := by
  rw [← Bool.not_eq_true]
  intro hstart
  obtain ⟨rest, heq, -⟩ := h
  rw [writeChar_of_isIdentStart hstart] at heq
  obtain ⟨rfl, -⟩ := List.cons.inj heq
  exact absurd hstart (by decide)

/-! ## Words in a string -/

variable {word : List Char}

/-- Letters and underscores in front of what is written are those in front of the text. -/
theorem prefix_flatMap_writeChar_iff (hword : ∀ c ∈ word, Text.isIdentStart c = true)
    {cs : List Char} : word <+: cs.flatMap writeChar ↔ word <+: cs := by
  induction cs generalizing word with
  | nil => rfl
  | cons c cs ih =>
    cases word with
    | nil => simp
    | cons d word =>
      rw [List.forall_mem_cons] at hword
      rw [List.flatMap_cons]
      rcases writeChar_cases c with hself | hescape
      · rw [hself, List.singleton_append, List.cons_prefix_cons, List.cons_prefix_cons,
          ih hword.2]
      -- A backslash is written here, and no letter stands here in the text.
      · have hne : d ≠ c :=
          Text.ne_of_class hword.1 (isIdentStart_eq_false_of_isEscape hescape)
        have hback : d ≠ '\\' := Text.ne_of_class hword.1 (by decide)
        obtain ⟨rest, hescape, -⟩ := hescape
        rw [hescape, List.cons_append, List.cons_prefix_cons, List.cons_prefix_cons]
        exact iff_of_false (fun h => hback h.1) fun h => hne h.1

/-- Escapes neither hide a word nor make one. -/
theorem infix_flatMap_writeChar_iff (hword : IsResourceWord word) {cs : List Char} :
    word <:+: cs.flatMap writeChar ↔ word <:+: cs := by
  induction cs with
  | nil => rfl
  | cons c cs ih =>
    have hfirst : word <+: (c :: cs).flatMap writeChar ↔ word <+: c :: cs :=
      prefix_flatMap_writeChar_iff hword.isIdentStart
    rw [List.flatMap_cons] at hfirst ⊢
    rcases writeChar_cases c with hself | hescape
    · rw [hself, List.singleton_append] at hfirst ⊢
      rw [List.infix_cons_iff, List.infix_cons_iff, hfirst, ih]
    -- No word begins in the escape, and none with the character that it stands for.
    · have hstart := isIdentStart_eq_false_of_isEscape hescape
      have hne {d : Char} (hd : Text.isIdentStart d = true) : d ∉ [c] := fun hmem =>
        Text.ne_of_class hd hstart (List.mem_singleton.mp hmem)
      obtain ⟨rest, hescape, hlower, hupper⟩ := hescape
      rw [hescape, hword.infix_append_iff (by simp [hlower]) (by simp [hupper]), ih,
        ← List.singleton_append, hword.infix_append_iff (hne (by decide)) (hne (by decide))]

/-- A word in a JSON string is one in the text that it stands for. -/
theorem infix_writeString_iff (hword : IsResourceWord word) {s : String} :
    word <:+: writeString s ↔ word <:+: s.toList := by
  have hquote : '"' ∉ word := hword.not_mem (by decide)
  have hwritten : writeString s = [] ++ '"' :: (s.toList.flatMap writeChar ++ '"' :: []) := rfl
  rw [hwritten, Text.infix_append_cons_iff hquote, Text.infix_append_cons_iff hquote,
    infix_flatMap_writeChar_iff hword]
  simp [hword.ne_nil]

/-! ## Words in a tree -/

/-- A string or a key of a tree, at any depth. -/
inductive HasText : Value → String → Prop where
  | str (s : String) : HasText (.str s) s
  | item {xs : List Value} {x : Value} {s : String} (hx : x ∈ xs) (h : HasText x s) :
      HasText (.list xs) s
  | key {es : Entries Value} {k : String} {v : Value} (he : (k, v) ∈ es) : HasText (.map es) k
  | value {es : Entries Value} {k : String} {v : Value} {s : String} (he : (k, v) ∈ es)
      (h : HasText v s) : HasText (.map es) s

/-- A word stands in a string or a key of a tree. -/
def Mentions (v : Value) (word : List Char) : Prop :=
  ∃ s, HasText v s ∧ word <:+: s.toList

theorem mentions_str_iff {s : String} : Mentions (.str s) word ↔ word <:+: s.toList := by
  constructor
  · rintro ⟨_, ⟨⟩, h⟩
    exact h
  · exact fun h => ⟨s, .str s, h⟩

theorem mentions_list_iff {xs : List Value} :
    Mentions (.list xs) word ↔ ∃ x ∈ xs, Mentions x word := by
  constructor
  · rintro ⟨s, hs, h⟩
    cases hs with
    | item hx hs => exact ⟨_, hx, s, hs, h⟩
  · rintro ⟨x, hx, s, hs, h⟩
    exact ⟨s, .item hx hs, h⟩

theorem mentions_map_iff {es : Entries Value} : Mentions (.map es) word ↔
    ∃ e ∈ es, word <:+: e.1.toList ∨ Mentions e.2 word := by
  constructor
  · rintro ⟨s, hs, h⟩
    cases hs with
    | key he => exact ⟨_, he, .inl h⟩
    | value he hs => exact ⟨_, he, .inr ⟨s, hs, h⟩⟩
  · rintro ⟨e, he, h | ⟨s, hs, h⟩⟩
    · exact ⟨e.1, .key he, h⟩
    · exact ⟨s, .value he hs, h⟩

theorem underscore_not_mem_writeFloat (x : Binary64) : '_' ∉ writeFloat x := by
  unfold writeFloat
  split_ifs
  · simp
  · simp
  · simp
  · exact x.underscore_not_mem_text

theorem underscore_not_mem_of_writeInt {n : Int} {s : String} (h : writeInt n = .ok s) :
    '_' ∉ s.toList := by
  unfold writeInt at h
  split at h
  · obtain rfl := Except.ok.inj h
    rw [toString_eq_ofList, String.toList_ofList, List.mem_append, not_or]
    refine ⟨?_, Nat.underscore_not_in_toDigits⟩
    split <;> simp
  · cases h

/-- No word stands between the brackets of a container but in one of its parts. -/
theorem infix_enclosed_iff (hword : IsResourceWord word) {left right : Char}
    (hleft : Text.isIdentStart left = false) (hright : Text.isIdentStart right = false)
    {parts : List (List Char)} :
    word <:+: left :: [',', ' '].intercalate parts ++ [right] ↔ ∃ part ∈ parts, word <:+: part := by
  have hsplit : left :: [',', ' '].intercalate parts ++ [right] =
      [] ++ left :: ([',', ' '].intercalate parts ++ right :: []) := rfl
  rw [hsplit, Text.infix_append_cons_iff (hword.not_mem hleft),
    Text.infix_append_cons_iff (hword.not_mem hright),
    Text.infix_intercalate_iff hword.ne_nil (hword.not_mem (by decide)) (hword.not_mem (by decide))]
  simp [hword.ne_nil]

/-- What is written without underscores mentions no word. -/
theorem infix_iff_of_underscore_not_mem (hword : IsResourceWord word) {cs : List Char}
    (hcs : '_' ∉ cs) {v : Value} (hv : ∀ s, ¬HasText v s) : word <:+: cs ↔ Mentions v word :=
  iff_of_false (hword.not_infix hcs) fun ⟨s, hs, _⟩ => hv s hs

mutual

/-- A word stands in the JSON text of a plain tree exactly if it stands in a string or a key. -/
theorem infix_write_iff (hword : IsResourceWord word) : (v : Value) → v.isPlain = true →
    ∀ {limit : Nat} {cs : List Char}, write limit v = .ok cs → (word <:+: cs ↔ Mentions v word)
  | .null => by
    intro _ limit cs h
    obtain rfl := Except.ok.inj (h.symm.trans (by rw [write]))
    exact infix_iff_of_underscore_not_mem hword (by simp) nofun
  | .bool b => by
    intro _ limit cs h
    rw [write] at h
    obtain rfl := Except.ok.inj h
    refine infix_iff_of_underscore_not_mem hword ?_ nofun
    split <;> simp
  | .int n => by
    intro _ limit cs h
    rw [write] at h
    obtain ⟨s, hs, rfl⟩ := map_eq_ok_iff.mp (mapError_eq_ok_iff.mp h)
    exact infix_iff_of_underscore_not_mem hword (underscore_not_mem_of_writeInt hs) nofun
  | .float x => by
    intro _ limit cs h
    rw [write] at h
    obtain rfl := Except.ok.inj h
    exact infix_iff_of_underscore_not_mem hword (underscore_not_mem_writeFloat x) nofun
  | .str s => by
    intro _ limit cs h
    rw [write] at h
    obtain rfl := Except.ok.inj h
    rw [infix_writeString_iff hword, mentions_str_iff]
  | .list xs => by
    intro hplain limit cs h
    rw [write] at h
    obtain ⟨left, h⟩ := exists_of_inside_eq_ok h
    obtain ⟨parts, hparts, h⟩ := exists_of_bind_eq_ok h
    obtain rfl := Except.ok.inj h
    rw [infix_enclosed_iff hword (by decide) (by decide), mentions_list_iff,
      infix_writeItems_iff hword xs hplain hparts]
  | .map es => by
    intro hplain limit cs h
    rw [write] at h
    obtain ⟨left, h⟩ := exists_of_inside_eq_ok h
    obtain ⟨parts, hparts, h⟩ := exists_of_bind_eq_ok h
    obtain rfl := Except.ok.inj h
    rw [infix_enclosed_iff hword (by decide) (by decide), mentions_map_iff,
      infix_writeEntries_iff hword es hplain hparts]
  | .bytes _ | .set _ | .pair _ _ => by
    intro hplain
    cases hplain
termination_by structural v => v

theorem infix_writeItems_iff (hword : IsResourceWord word) : (xs : List Value) →
    Value.areAllPlain xs = true → ∀ {limit : Nat} {parts : List (List Char)},
      writeItems limit xs = .ok parts →
      ((∃ part ∈ parts, word <:+: part) ↔ ∃ x ∈ xs, Mentions x word)
  | [] => by
    intro _ limit parts h
    obtain rfl := Except.ok.inj (h.symm.trans (by rw [writeItems]))
    simp
  | x :: xs => by
    intro hplain limit parts h
    rw [Value.areAllPlain, Bool.and_eq_true] at hplain
    rw [writeItems] at h
    obtain ⟨first, hfirst, h⟩ := exists_of_bind_eq_ok h
    obtain ⟨rest, hrest, h⟩ := exists_of_bind_eq_ok h
    obtain rfl := Except.ok.inj h
    rw [List.exists_mem_cons_iff, List.exists_mem_cons_iff, infix_write_iff hword x hplain.1 hfirst,
      infix_writeItems_iff hword xs hplain.2 hrest]
termination_by structural xs => xs

theorem infix_writeEntries_iff (hword : IsResourceWord word) : (es : List (String × Value)) →
    Value.haveAllPlain es = true → ∀ {limit : Nat} {parts : List (List Char)},
      writeEntries limit es = .ok parts →
      ((∃ part ∈ parts, word <:+: part) ↔ ∃ e ∈ es, word <:+: e.1.toList ∨ Mentions e.2 word)
  | [] => by
    intro _ limit parts h
    obtain rfl := Except.ok.inj (h.symm.trans (by rw [writeEntries]))
    simp
  | (k, v) :: es => by
    intro hplain limit parts h
    rw [Value.haveAllPlain, Bool.and_eq_true] at hplain
    rw [writeEntries] at h
    obtain ⟨first, hfirst, h⟩ := exists_of_bind_eq_ok h
    obtain ⟨rest, hrest, h⟩ := exists_of_bind_eq_ok h
    obtain rfl := Except.ok.inj h
    have hentry : word <:+: writeString k ++ ':' :: ' ' :: first ↔
        word <:+: k.toList ∨ Mentions v word := by
      have hsplit : writeString k ++ ':' :: ' ' :: first =
          writeString k ++ ':' :: ([] ++ ' ' :: first) := rfl
      rw [hsplit, Text.infix_append_cons_iff (hword.not_mem (by decide)),
        Text.infix_append_cons_iff (hword.not_mem (by decide)), infix_writeString_iff hword,
        infix_write_iff hword v hplain.1 hfirst]
      simp [hword.ne_nil]
    rw [List.exists_mem_cons_iff, List.exists_mem_cons_iff, hentry,
      infix_writeEntries_iff hword es hplain.2 hrest]
termination_by structural es => es

end

end Schematic.Json
