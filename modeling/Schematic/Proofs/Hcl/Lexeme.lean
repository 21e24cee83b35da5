import Schematic.Hcl.Lexeme

/-!
# Cutting a text in two

Where one lexeme ends and the next one begins, a text can be cut in two, and both parts have the
lexemes that they had in the whole. So a part of a text between two such places can be looked at
on its own: it is read in the same way, whatever stands around it.

The back part is what the reader has in front of it anyway. The front part needs an argument: a
lexeme ends where it does because of what it holds or because of a line feed behind it, and the
end of the text takes the place of that line feed.

## Main statements

- `ofText_back`, `ofText_front`, `ofText_factor` — the lexemes of a back, a front and a middle part
-/

namespace Schematic.Hcl.Lexeme

/-! ## One lexeme -/

/-- An ordinary character of a string literal belongs to it. -/
theorem cutLiteral_cons {c : Char} (hquote : c ≠ '"') (hfeed : c ≠ '\n') (hescape : c ≠ '\\')
    (rest : List Char) :
    cutLiteral (c :: rest) = (c :: (cutLiteral rest).1, (cutLiteral rest).2) := by
  rw [cutLiteral]
  · exact hquote
  · exact hfeed
  · exact fun h _ => hescape h
  · exact fun _ _ h _ => hescape h

theorem cutLiteral_front {cs taken left after : List Char}
    (h : cutLiteral cs = (taken, left ++ after)) : cutLiteral (taken ++ left) = (taken, left) := by
  fun_induction cutLiteral cs generalizing taken with
  | case1 =>
    obtain ⟨rfl, hnil⟩ := Prod.mk.inj h
    obtain ⟨rfl, -⟩ := List.append_eq_nil_iff.mp hnil.symm
    rfl
  | case2 rest =>
    obtain ⟨rfl, -⟩ := Prod.mk.inj h
    rfl
  | case3 rest =>
    obtain ⟨rfl, hfeed⟩ := Prod.mk.inj h
    -- The line feed that ends the literal, if the front part still holds it.
    cases left with
    | nil => rfl
    | cons d left =>
      obtain ⟨rfl, -⟩ := List.cons.inj hfeed
      rfl
  | case4 =>
    obtain ⟨rfl, hnil⟩ := Prod.mk.inj h
    obtain ⟨rfl, -⟩ := List.append_eq_nil_iff.mp hnil.symm
    rfl
  | case5 c rest t l hrest ih =>
    obtain ⟨rfl, rfl⟩ := Prod.mk.inj h
    simp only [List.cons_append, cutLiteral, ih hrest]
  | case6 c rest hquote hfeed hlast hescape t l hrest ih =>
    obtain ⟨rfl, rfl⟩ := Prod.mk.inj h
    have hback : c ≠ '\\' := by
      rintro rfl
      cases rest with
      | nil => exact hlast rfl rfl
      | cons d rest => exact hescape d rest rfl rfl
    rw [List.cons_append, cutLiteral_cons hquote hfeed hback, ih hrest]

/-- What stands in front of the first character outside a class still does when the text is cut
behind it. -/
theorem span_front {p : Char → Bool} {cs left after : List Char}
    (h : cs.dropWhile p = left ++ after) :
    (cs.takeWhile p ++ left).takeWhile p = cs.takeWhile p ∧
      (cs.takeWhile p ++ left).dropWhile p = left := by
  induction cs with
  | nil =>
    obtain ⟨rfl, -⟩ := List.append_eq_nil_iff.mp h.symm
    exact ⟨rfl, rfl⟩
  | cons c cs ih =>
    cases hc : p c with
    | true =>
      rw [List.dropWhile_cons_of_pos hc] at h
      simpa [List.takeWhile_cons_of_pos, hc] using ih h
    | false =>
      rw [List.dropWhile_cons_of_neg (by simp [hc])] at h
      cases left with
      | nil => simp [hc]
      | cons d left =>
        obtain ⟨rfl, -⟩ := List.cons.inj h
        simp [hc]

theorem cutLine_front {cs taken left after : List Char}
    (h : cutLine cs = (taken, left ++ after)) : cutLine (taken ++ left) = (taken, left) := by
  obtain ⟨rfl, hleft⟩ := Prod.mk.inj h
  obtain ⟨htaken, hrest⟩ := span_front hleft
  exact Prod.ext htaken hrest

theorem cutRemark_front {cs taken left after : List Char}
    (h : cutRemark cs = (taken, left ++ after)) : cutRemark (taken ++ left) = (taken, left) := by
  fun_induction cutRemark cs generalizing taken with
  | case1 =>
    obtain ⟨rfl, hnil⟩ := Prod.mk.inj h
    obtain ⟨rfl, -⟩ := List.append_eq_nil_iff.mp hnil.symm
    rfl
  | case2 rest =>
    obtain ⟨rfl, -⟩ := Prod.mk.inj h
    rfl
  | case3 c rest hmark t l hrest ih =>
    obtain ⟨rfl, rfl⟩ := Prod.mk.inj h
    have hwhole : t ++ (left ++ after) = rest := by
      rw [← cutRemark_append rest, hrest]
    rw [List.cons_append, cutRemark]
    · rw [ih hrest]
    · -- A closing mark in the front part would be one of the whole text.
      intro more hstar hslash
      apply hmark (more ++ after) hstar
      rw [← hwhole, ← List.append_assoc, hslash, List.cons_append]

theorem cutComment?_front {cs taken left after : List Char}
    (h : cutComment? cs = some (taken, left ++ after)) :
    cutComment? (taken ++ left) = some (taken, left) := by
  unfold cutComment? at h
  split at h
  · next rest =>
    cases hcut : cutLine rest with
    | mk t l =>
      obtain ⟨rfl, rfl⟩ := Prod.mk.inj (Option.some.inj (hcut ▸ h))
      simp only [List.cons_append, cutComment?, cutLine_front hcut]
  · next rest =>
    cases hcut : cutLine rest with
    | mk t l =>
      obtain ⟨rfl, rfl⟩ := Prod.mk.inj (Option.some.inj (hcut ▸ h))
      simp only [List.cons_append, cutComment?, cutLine_front hcut]
  · next rest =>
    cases hcut : cutRemark rest with
    | mk t l =>
      obtain ⟨rfl, rfl⟩ := Prod.mk.inj (Option.some.inj (hcut ▸ h))
      simp only [List.cons_append, cutComment?, cutRemark_front hcut]
  · cases h

/-- Where no comment begins, none begins in a front part of the text. -/
theorem cutComment?_eq_none_front {c : Char} {left after : List Char}
    (h : cutComment? (c :: (left ++ after)) = none) : cutComment? (c :: left) = none := by
  unfold cutComment? at h ⊢
  split at h <;> try cases h
  next hhash hline hremark =>
  split
  · next heq =>
    obtain ⟨rfl, rfl⟩ := List.cons.inj heq
    exact (hhash _ rfl).elim
  · next rest heq =>
    obtain ⟨rfl, rfl⟩ := List.cons.inj heq
    exact (hline _ rfl).elim
  · next rest heq =>
    obtain ⟨rfl, rfl⟩ := List.cons.inj heq
    exact (hremark _ rfl).elim
  · rfl

/-- The first lexeme of a text begins with its first character. -/
theorem exists_text_next (c : Char) (rest : List Char) :
    ∃ cs, (next c rest).1.text = c :: cs := by
  have happend := text_next_append c rest
  cases htext : (next c rest).1.text with
  | nil =>
    rw [htext, List.nil_append] at happend
    exact absurd (length_next_lt c rest) (by simp [happend])
  | cons d cs =>
    rw [htext] at happend
    exact ⟨cs, by rw [(List.cons.inj happend).1]⟩

/-- The first lexeme of a text is the first one of a front part that it ends in. -/
theorem next_front {c : Char} {rest cs left after : List Char} {l : Lexeme}
    (h : next c rest = (l, left ++ after)) (htext : l.text = c :: cs) :
    next c (cs ++ left) = (l, left) := by
  have hwhole : rest = cs ++ (left ++ after) := by
    have := text_next_append c rest
    rw [h, htext] at this
    exact (List.cons.inj this).2.symm
  unfold next at h
  split at h
  · next taken left' hcomment =>
    obtain ⟨rfl, rfl⟩ := Prod.mk.inj h
    rw [next, ← List.cons_append, ← htext, text, cutComment?_front hcomment]
  · next hcomment =>
    have hnone : cutComment? (c :: (cs ++ left)) = none := by
      rw [hwhole, ← List.append_assoc] at hcomment
      exact cutComment?_eq_none_front hcomment
    unfold next
    rw [hnone]
    split at h
    · next hquote =>
      cases hcut : cutLiteral rest with
      | mk t l' =>
        obtain ⟨rfl, rfl⟩ := Prod.mk.inj (hcut ▸ h)
        obtain ⟨-, rfl⟩ := List.cons.inj htext
        simp only [hquote, if_true, cutLiteral_front hcut]
    · next hquote =>
      split at h
      · next hopen =>
        obtain ⟨rfl, rfl⟩ := Prod.mk.inj h
        obtain ⟨-, rfl⟩ := List.cons.inj htext
        simp [hopen]
      · next hopen =>
        split at h
        · next hclose =>
          obtain ⟨rfl, rfl⟩ := Prod.mk.inj h
          obtain ⟨-, rfl⟩ := List.cons.inj htext
          simp [hclose]
        · next hclose =>
          obtain ⟨rfl, rfl⟩ := Prod.mk.inj h
          obtain ⟨-, rfl⟩ := List.cons.inj htext
          simp [hquote, hopen, hclose]

/-! ## Many lexemes -/

/-- The lexemes of a back part of a text. -/
theorem ofText_back {cs : List Char} {front back : List Lexeme} (h : ofText cs = front ++ back) :
    ofText (back.flatMap text) = back := by
  induction front generalizing cs with
  | nil =>
    rw [List.nil_append] at h
    rw [← h, flatMap_text_ofText]
  | cons l front ih =>
    cases cs with
    | nil => simp [ofText_nil] at h
    | cons c rest =>
      rw [ofText_cons, List.cons_append] at h
      exact ih (List.cons.inj h).2

/-- The lexemes of a front part of a text. -/
theorem ofText_front {cs : List Char} {front back : List Lexeme} (h : ofText cs = front ++ back) :
    ofText (front.flatMap text) = front := by
  induction front generalizing cs with
  | nil => exact ofText_nil
  | cons l front ih =>
    cases cs with
    | nil => simp [ofText_nil] at h
    | cons c rest =>
      rw [ofText_cons, List.cons_append] at h
      obtain ⟨hl, hrest⟩ := List.cons.inj h
      obtain ⟨cs, htext⟩ : ∃ cs, l.text = c :: cs := hl ▸ exists_text_next c rest
      have hleft : (next c rest).2 = front.flatMap text ++ back.flatMap text := by
        rw [← List.flatMap_append, ← hrest, flatMap_text_ofText]
      have hnext := next_front (Prod.ext hl hleft) htext
      rw [List.flatMap_cons, htext, List.cons_append, ofText_cons, hnext, ih hrest]

/-- The lexemes of a part in the middle of a text. -/
theorem ofText_factor {cs : List Char} {front middle back : List Lexeme}
    (h : ofText cs = front ++ middle ++ back) : ofText (middle.flatMap text) = middle := by
  rw [List.append_assoc] at h
  exact ofText_front (ofText_back h)

end Schematic.Hcl.Lexeme
