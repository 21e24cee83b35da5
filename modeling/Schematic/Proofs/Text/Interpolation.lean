import Schematic.Proofs.Text.Search
import Schematic.Text.Interpolation

/-!
# Interpolations as matches of a pattern

The search for interpolations goes through a text once, from a closing brace to the next opener, and
no further when an opener is not closed. What it finds are the matches of a pattern: an opener, then
a group of characters other than a closing brace, then a closing brace. The pattern is tried at
every place from left to right, and behind a match it is tried again from the end of that match on.

Of several openers in front of a closing brace, the first one makes the match, and the others are
part of its group. An opener that is not closed has no closing brace behind it, so there is no match
at a later place either.

## Main definitions

- `MatchesAt` — the pattern matches at a place, with a group
- `AreMatches` — the leftmost matches that do not overlap

## Main statements

- `MatchesAt.unique`, `AreMatches.unique` — there is one match at a place, and one list of matches
- `exists_areMatches` — the search finds the groups of the matches
- `interpolations_eq_iff` — and no others
-/

namespace Schematic.Text

/-! ## Matches -/

/-- The pattern matches at a place of a text: an opener stands there, behind it a group of
characters none of which is a closing brace, and a closing brace behind the group. -/
structure MatchesAt (cs : List Char) (place : Nat) (group : List Char) : Prop where
  stands : '$' :: '{' :: (group ++ ['}']) <+: cs.drop place
  brace_not_mem : '}' ∉ group

/-- The matches of the pattern in a text from a place on, as places with groups: the first one is at
the first place where the pattern matches at all, and the next ones are those behind its end. -/
inductive AreMatches (cs : List Char) : Nat → List (Nat × List Char) → Prop where
  | nil {start : Nat} (hnone : ∀ place group, start ≤ place → ¬MatchesAt cs place group) :
      AreMatches cs start []
  | cons {start place : Nat} {group : List Char} {more : List (Nat × List Char)}
      (hstart : start ≤ place) (hmatch : MatchesAt cs place group)
      (hfirst : ∀ earlier other, start ≤ earlier → earlier < place →
        ¬MatchesAt cs earlier other)
      (hmore : AreMatches cs (place + (group.length + 3)) more) :
      AreMatches cs start ((place, group) :: more)

variable {cs : List Char}

namespace MatchesAt

variable {place : Nat} {group other : List Char}

theorem exists_drop_eq (h : MatchesAt cs place group) :
    ∃ rest, cs.drop place = '$' :: '{' :: (group ++ '}' :: rest) := by
  obtain ⟨rest, hrest⟩ := h.stands
  exact ⟨rest, by rw [← hrest]; simp⟩

/-- The group of a match ends at the first closing brace. -/
theorem unique (h : MatchesAt cs place group) (hother : MatchesAt cs place other) :
    group = other := by
  obtain ⟨rest, hrest⟩ := h.exists_drop_eq
  obtain ⟨more, hmore⟩ := hother.exists_drop_eq
  have htail := (List.cons.inj (List.cons.inj (hrest.symm.trans hmore)).2).2
  have hcut := congrArg (cutAtChar? '}') htail
  rw [cutAtChar?_append h.brace_not_mem, cutAtChar?_append hother.brace_not_mem] at hcut
  exact (Prod.mk.inj (Option.some.inj hcut)).1

end MatchesAt

/-- Where no closing brace follows, there is no match any more. -/
theorem not_matchesAt_of_brace_not_mem {start place : Nat} (h : '}' ∉ cs.drop start)
    (hstart : start ≤ place) (group : List Char) : ¬MatchesAt cs place group := by
  intro hmatch
  obtain ⟨rest, hrest⟩ := hmatch.exists_drop_eq
  have hmem : '}' ∈ cs.drop place := by simp [hrest]
  obtain ⟨more, rfl⟩ := Nat.exists_eq_add_of_le hstart
  rw [← List.drop_drop] at hmem
  exact h (List.mem_of_mem_drop hmem)

namespace AreMatches

variable {start : Nat} {found : List (Nat × List Char)}

/-- A place without a match makes no difference to the matches behind it. -/
theorem of_succ (hnone : ∀ group, ¬MatchesAt cs start group)
    (h : AreMatches cs (start + 1) found) : AreMatches cs start found := by
  cases h with
  | nil hbehind =>
    apply AreMatches.nil
    intro place group hstart
    rcases Nat.eq_or_lt_of_le hstart with rfl | hlt
    · exact hnone group
    · exact hbehind place group hlt
  | cons hstart hmatch hfirst hmore =>
    refine .cons (Nat.le_of_succ_le hstart) hmatch (fun earlier other hle hlt => ?_) hmore
    rcases Nat.eq_or_lt_of_le hle with rfl | hbehind
    · exact hnone other
    · exact hfirst earlier other hbehind hlt

/-- The matches of a text are determined: the first match is at the first place there is. -/
theorem unique {others : List (Nat × List Char)} (h : AreMatches cs start found)
    (hothers : AreMatches cs start others) : found = others := by
  induction h generalizing others with
  | nil hnone =>
    cases hothers with
    | nil _ => rfl
    | cons hstart hmatch _ _ => exact absurd hmatch (hnone _ _ hstart)
  | @cons start place group more hstart hmatch hfirst _ ih =>
    cases hothers with
    | nil hnone => exact absurd hmatch (hnone _ _ hstart)
    | @cons _ place' group' more' hstart' hmatch' hfirst' hmore' =>
      -- Neither match is in front of the other one.
      have hplace : place = place' := by
        apply Nat.le_antisymm
        · exact Nat.le_of_not_lt fun hlt => hfirst place' group' hstart' hlt hmatch'
        · exact Nat.le_of_not_lt fun hlt => hfirst' place group hstart hlt hmatch
      subst hplace
      obtain rfl := hmatch.unique hmatch'
      rw [ih hmore']

end AreMatches

/-! ## The search -/

/-- An interpolation ends at its first closing brace. -/
theorem interpolations_append {inner : List Char} (h : '}' ∉ inner) (rest : List Char) :
    interpolations ('$' :: '{' :: (inner ++ '}' :: rest)) = inner :: interpolations rest := by
  rw [interpolations]
  split
  · next hcut =>
    rw [cutAtChar?_append h] at hcut
    obtain ⟨rfl, rfl⟩ := Prod.mk.inj (Option.some.inj hcut)
    rfl
  · next hcut =>
    rw [cutAtChar?_append h] at hcut
    cases hcut

/-- What the search finds behind a place are the groups of the matches from there on. -/
theorem exists_areMatches (cs : List Char) (start : Nat) : ∃ found,
    AreMatches cs start found ∧ found.map Prod.snd = interpolations (cs.drop start) := by
  -- The induction follows the search, which is at the place `start` of the text.
  generalize hrest : cs.drop start = rest
  fun_induction interpolations rest generalizing start with
  | case1 =>
    have hbrace : '}' ∉ cs.drop start := by simp [hrest]
    exact ⟨[], .nil fun _ group hle => not_matchesAt_of_brace_not_mem hbrace hle group, rfl⟩
  | case2 rest inner left hcut ih =>
    obtain ⟨rfl, hinner⟩ := append_of_cutAtChar? hcut
    have hmatch : MatchesAt cs start inner := ⟨⟨left, by rw [hrest]; simp⟩, hinner⟩
    have hleft : cs.drop (start + (inner.length + 3)) = left := by
      rw [← List.drop_drop, hrest]
      simp
    obtain ⟨found, hfound, hgroups⟩ := ih _ hleft
    refine ⟨(start, inner) :: found, .cons (Nat.le_refl _) hmatch ?_ hfound, ?_⟩
    · intro earlier _ hle hlt
      exact absurd hlt (Nat.not_lt_of_le hle)
    · rw [List.map_cons, hgroups]
  | case3 rest hcut =>
    -- The opener is not closed, so there is no closing brace any more.
    have hbrace : '}' ∉ cs.drop start := by
      rw [hrest]
      simp [not_mem_of_cutAtChar?_eq_none hcut]
    exact ⟨[], .nil fun _ group hle => not_matchesAt_of_brace_not_mem hbrace hle group, rfl⟩
  | case4 c rest hother ih =>
    have hnone (group : List Char) : ¬MatchesAt cs start group := by
      intro hmatch
      obtain ⟨more, hmore⟩ := hmatch.exists_drop_eq
      obtain ⟨rfl, htail⟩ := List.cons.inj (hrest.symm.trans hmore)
      exact hother _ rfl htail
    have hbehind : cs.drop (start + 1) = rest := by
      rw [← List.drop_drop, hrest]
      rfl
    obtain ⟨found, hfound, hgroups⟩ := ih _ hbehind
    exact ⟨found, hfound.of_succ hnone, hgroups⟩

/-- The interpolations of a text are the groups of the leftmost matches that do not overlap, and
behind an opener that is not closed there is no match that the search could miss. -/
theorem interpolations_eq_iff (cs : List Char) :
    (∀ groups, interpolations cs = groups ↔
      ∃ found, AreMatches cs 0 found ∧ found.map Prod.snd = groups) ∧
    ∀ start, ['$', '{'] <+: cs.drop start → '}' ∉ cs.drop (start + 2) →
      ∀ place group, start ≤ place → ¬MatchesAt cs place group := by
  obtain ⟨found, hfound, hgroups⟩ := exists_areMatches cs 0
  rw [List.drop_zero] at hgroups
  refine ⟨fun groups => ⟨?_, ?_⟩, ?_⟩
  · rintro rfl
    exact ⟨found, hfound, hgroups⟩
  · rintro ⟨others, hothers, rfl⟩
    rw [← hgroups, hfound.unique hothers]
  · rintro start ⟨rest, hrest⟩ hunclosed place group hstart
    have hbrace : '}' ∉ cs.drop start := by
      rw [← List.drop_drop, ← hrest] at hunclosed
      rw [← hrest]
      simpa using hunclosed
    exact not_matchesAt_of_brace_not_mem hbrace hstart group

/-- A text with an opener inside of a group, a closing brace of its own, an empty group, and an
opener that is not closed. -/
def nestedOpeners : List Char :=
  "$\x7ba $\x7bb\x7d \x7d $\x7b\x7d $\x7bc".toList

theorem interpolations_eq_iff_nestedOpeners :
    (∃ found, AreMatches nestedOpeners 0 found ∧ found.map Prod.snd = ["a $\x7bb".toList, []]) ∧
      ['$', '{'] <+: nestedOpeners.drop 15 ∧ '}' ∉ nestedOpeners.drop 17 ∧
      ∀ place group, 15 ≤ place → ¬MatchesAt nestedOpeners place group := by
  obtain ⟨hgroups, hbehind⟩ := interpolations_eq_iff nestedOpeners
  have hopener : ['$', '{'] <+: nestedOpeners.drop 15 := by decide +kernel
  have hunclosed : '}' ∉ nestedOpeners.drop 17 := by decide +kernel
  exact ⟨(hgroups _).mp (by decide +kernel), hopener, hunclosed, hbehind 15 hopener hunclosed⟩

end Schematic.Text
