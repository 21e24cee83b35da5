import Schematic.Proofs.Hcl.Remarked
import Schematic.Proofs.Hcl.Unquoted

/-!
# Attributes and comments

A comment at the end of a line does not change the attributes of a body: assignments and lists are
read from the top-level text, which comments are left out of. Tags are read from the inner text of
their block, and comments stay in it. What a comment there holds may be read as a tag, but only if
there is a quote in it, and nothing but the tags can change.

## Main definitions

- `hideTags` — attributes without the value of the tags

## Main statements

- `attributes_remark` — the attributes of a body with a comment more
- `not_attributes_remark` — a comment that is read as a tag
-/

namespace Schematic.Hcl

/-! ## Lists -/

/-- Blanks at the ends of lines do not change what lists hold. -/
theorem insertLists_of_padded {lists lists' : List (List Char × List Char)}
    (h : List.Forall₂ ListPadded lists lists') (entries : Entries Value) :
    insertLists entries lists = insertLists entries lists' := by
  induction h generalizing entries with
  | nil => rfl
  | @cons padded plain _ _ hlist _ ih =>
    obtain ⟨key, content⟩ := padded
    obtain ⟨key', content'⟩ := plain
    obtain ⟨rfl, hcontent⟩ := hlist
    rw [insertLists, insertLists, List.foldlM_cons, List.foldlM_cons]
    simp only [hcontent.listItems_eq]
    cases listItems (key == dependsOn) content' with
    | error e => rfl
    | ok items => exact ih _

/-! ## Tags -/

/-- Attributes without the value of the tags. -/
def hideTags (entries : Entries Value) : Entries Value :=
  entries.map fun entry => (entry.1, if entry.1 = "tags" then .null else entry.2)

theorem hideTags_insert (value : Value) (entries : Entries Value) :
    hideTags (entries.insert "tags" value) = (hideTags entries).insert "tags" .null := by
  induction entries with
  | nil => rfl
  | cons entry rest ih =>
    obtain ⟨key, old⟩ := entry
    by_cases hkey : key = "tags"
    · subst hkey
      rfl
    · rw [Entries.insert, if_neg hkey, hideTags, List.map_cons, ← hideTags, ih]
      simp [hideTags, Entries.insert, hkey]

section Tags

variable {remark : List Char} {name? : Option (List Char)} {blocks blocks' : List Nested}

/-- A comment in a block leaves everything but the value of the tags. -/
theorem hideTags_insertTags (h : List.Forall₂ (Remarked remark name?) blocks blocks')
    {entries entries' : Entries Value} (hentries : hideTags entries = hideTags entries') :
    hideTags (insertTags entries blocks) = hideTags (insertTags entries' blocks') := by
  induction h generalizing entries entries' with
  | nil => exact hentries
  | @cons block block' _ _ hblock _ ih =>
    have hname : block.name = block'.name := by cases hblock <;> rfl
    rw [insertTags, insertTags, List.foldl_cons, List.foldl_cons, ← insertTags, ← insertTags,
      hname]
    apply ih
    split
    · rw [hideTags_insert, hideTags_insert, hentries]
    · exact hentries

/-- If the comment leaves the tags of the block that it stands in, it leaves all tags. -/
theorem insertTags_of_remarked (h : List.Forall₂ (Remarked remark name?) blocks blocks')
    (htags : name? = some "tags".toList → ∀ front rest,
      tags (front ++ ' ' :: (remark ++ '\n' :: rest)) = tags (front ++ '\n' :: rest))
    (entries : Entries Value) : insertTags entries blocks = insertTags entries blocks' := by
  induction h generalizing entries with
  | nil => rfl
  | @cons block block' _ _ hblock _ ih =>
    rw [insertTags, insertTags, List.foldl_cons, List.foldl_cons, ← insertTags, ← insertTags]
    have hstep : (if block.name = "tags".toList then entries.insert "tags" (tags block.inner)
          else entries) =
        if block'.name = "tags".toList then entries.insert "tags" (tags block'.inner)
          else entries := by
      cases hblock with
      | refl => rfl
      | remark hname front rest =>
        split
        · next heq =>
          obtain rfl := heq
          rw [htags hname]
        · rfl
    rw [hstep, ih]

end Tags

/-! ## All attributes -/

/-- The attributes that the top-level text of a body holds: scalars, then lists. -/
def topAttributes (top : List Char) : Except NumberError (Entries Value) := do
  let scalars ← insertScalars [] (assigned top)
  insertLists scalars (listsFrom true 0 top)

theorem attributes_eq (body : List Char) : attributes body =
    (topAttributes (split body).top).map fun entries => insertTags entries (split body).nested := by
  rw [attributes, topAttributes, assigned]
  cases insertScalars [] ((Text.lines (split body).top).filterMap assignment?) with
  | error e => rfl
  | ok scalars => rfl

theorem Padded.topAttributes_eq {cs ds : List Char} (h : Padded cs ds) :
    topAttributes cs = topAttributes ds := by
  rw [topAttributes, topAttributes, h.assigned_eq]
  simp only [insertLists_of_padded h.forall₂_listsFrom]

/-- A comment at the end of a line changes no attribute but the tags, and these only if it stands
in a block of that name and there is a quote in it. -/
theorem attributes_remark (mark : Mark) {before text after : List Char}
    (hbefore : EndsOutside before) (htext : '\n' ∉ text) (hafter : IsLineEnd after) :
    (attributes (before ++ ' ' :: (remark mark text ++ after))).map hideTags =
        (attributes (before ++ after)).map hideTags ∧
      ('"' ∉ text ∨ openBlock? [] (Lexeme.ofText before) ≠ some "tags".toList →
        attributes (before ++ ' ' :: (remark mark text ++ after)) =
          attributes (before ++ after)) := by
  obtain ⟨htop, hnested⟩ :=
    splitLexemes_remark hafter.lexemes (remark mark text) [] (Lexeme.ofText before)
  rw [← hbefore.ofText_remark mark htext hafter, ← hbefore.ofText_append hafter.endsSlash]
    at htop hnested
  have htop' : topAttributes (split (before ++ ' ' :: (remark mark text ++ after))).top =
      topAttributes (split (before ++ after)).top := htop.topAttributes_eq
  rw [attributes_eq, attributes_eq, htop']
  cases topAttributes (split (before ++ after)).top with
  | error e => exact ⟨rfl, fun _ => rfl⟩
  | ok entries =>
    refine ⟨congrArg Except.ok (hideTags_insertTags hnested rfl), fun h => ?_⟩
    apply congrArg Except.ok
    apply insertTags_of_remarked hnested
    -- Tags are read from this block only if its name is theirs.
    intro hname front rest
    rcases h with hquote | hblock
    · exact tags_remark mark hquote htext front rest
    · exact absurd hname hblock

/-! ## A comment that is read as a tag -/

/-- The text of a body up to the end of a line in its tags. -/
def taggedBody : List Char :=
  "tags = \x7b\n  A = \"1\"".toList

/-- Without quotes the comment is left alone. -/
theorem attributes_remark_taggedBody : EndsOutside taggedBody ∧ '\n' ∉ "B = 2".toList ∧
    IsLineEnd "\n\x7d\n".toList ∧
    attributes (taggedBody ++ ' ' :: (remark .hash "B = 2".toList ++ "\n\x7d\n".toList)) =
      attributes (taggedBody ++ "\n\x7d\n".toList) := by
  have hbody : EndsOutside taggedBody := by decide +kernel
  have htext : '\n' ∉ "B = 2".toList := by decide
  have hend : IsLineEnd "\n\x7d\n".toList := .inr ⟨"\x7d\n".toList, rfl⟩
  exact ⟨hbody, htext, hend, (attributes_remark .hash hbody htext hend).2 (.inl (by decide))⟩

/-- The names of the tags among attributes. -/
def tagNames (entries : Entries Value) : List String :=
  ((entries.get? "tags").map fun value => value.entries.keys).getD []

/-- With quotes it may be read as a tag. -/
theorem not_attributes_remark : ¬ ∀ (mark : Mark) (before text after : List Char),
    EndsOutside before → '\n' ∉ text → IsLineEnd after →
      attributes (before ++ ' ' :: (remark mark text ++ after)) = attributes (before ++ after) := by
  intro h
  have hsame := h .hash taggedBody "B = \"2\"".toList "\n\x7d\n".toList (by decide +kernel)
    (by decide) (.inr ⟨"\x7d\n".toList, rfl⟩)
  have hnames := congrArg (fun read => read.toOption.map tagNames) hsame
  exact absurd hnames (by decide +kernel)

end Schematic.Hcl
