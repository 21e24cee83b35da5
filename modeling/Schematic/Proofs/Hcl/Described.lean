import Schematic.Hcl.Configuration
import Schematic.Proofs.Hcl.Attributes
import Schematic.Proofs.Hcl.Blocks

/-!
# Reading descriptions and sources

The description of a variable and the source of a module are texts in quotes, and are read as what
stands between these. An empty one is taken for none and stays in its quotes, unlike the values of
other attributes.

## Main definitions

- `Caption`, `CaptionKind` — blocks that hold one text
- `Caption.shown` — what is read of a text

## Main statements

- `variableDetails_captions` — the descriptions of variables
- `configuration_descriptions`, `configuration_sources` — the trees of variables and modules
-/

namespace Schematic.Hcl

open Lexeme
open Text (unlines unlines_cons unlines_append)

/-! ## Blocks with one text -/

/-- A block that has a name and holds a text. -/
structure Caption where
  name : List Char
  text : List Char
  isQuotable_name : IsQuotable name
  isLineText_text : IsLineText text

/-- What the text is: the description of a variable or the source of a module. -/
inductive CaptionKind where
  | description
  | source

namespace CaptionKind

def keyword : CaptionKind → String
  | description => "variable"
  | source => "module"

/-- The first character of the key. -/
def first : CaptionKind → Char
  | description => 'd'
  | source => 's'

def rest : CaptionKind → List Char
  | description => "escription".toList
  | source => "ource".toList

theorem isIdentStart_first (kind : CaptionKind) : Text.isIdentStart kind.first = true := by
  cases kind <;> decide

theorem isIdentRest_rest (kind : CaptionKind) : ∀ c ∈ kind.rest, Text.isIdentRest c = true := by
  cases kind <;> decide

/-- The attribute that holds the text. -/
def key (kind : CaptionKind) : Identifier :=
  ⟨kind.first, kind.rest, kind.isIdentStart_first, kind.isIdentRest_rest⟩

theorem isKeyword_keyword (kind : CaptionKind) : IsKeyword kind.keyword.toList := by
  cases kind <;> exact ⟨by decide, by decide⟩

end CaptionKind

/-- Flat text in braces is closed by the brace behind it. -/
theorem blockEnd?_of_isFlat {body : List Char} (h : IsFlat body) :
    blockEnd? ('{' :: (body ++ ['}'])) 0 = some (body.length + 1) := by
  obtain ⟨ls, hls, hflat⟩ := h
  have hlexemes : ofText ('{' :: (body ++ ['}'])) = [] ++ openBrace :: (ls ++ [closeBrace]) :=
    (hasLexemes_openBrace.append (hls.append hasLexemes_closeBrace)).ofText_eq
  have hend := blockEnd?_width hlexemes
  rw [width_nil, (Balanced.of_isFlat hflat).cutBlock?_closeBrace] at hend
  rw [hend]
  simp [hls.width_eq, Nat.add_comm]

namespace Caption

variable (kind : CaptionKind) (t : Caption)

/-- The line that the text stands on. -/
def asAttribute : Attribute :=
  .single kind.key (.text t.text t.isLineText_text)

/-- The text between the braces. -/
def body : List Char :=
  '\n' :: ((t.asAttribute kind).line ++ ['\n'])

theorem isFlat_body : IsFlat (t.body kind) := by
  have hfeed : IsFlat ['\n'] := isFlat_plain (by decide)
  exact hfeed.append ((t.asAttribute kind).isFlat_line.append hfeed)

/-- The block on lines of its own. -/
def block : BlockText where
  labels := [t.name]
  body := t.body kind
  isQuotable := List.forall_mem_singleton.mpr t.isQuotable_name
  blockEnd_eq := blockEnd?_of_isFlat (t.isFlat_body kind)

end Caption

/-- Blocks one after the other. -/
def captions (kind : CaptionKind) (ts : List Caption) : List Char :=
  written kind.keyword.toList (ts.map (Caption.block kind))

/-! ## Their assignments -/

namespace Caption

variable (kind : CaptionKind) (t : Caption)

/-- What is read of the text: the text itself, unless it is empty. -/
def shown : List Char :=
  if t.text = [] then inQuotes [] else t.text

theorem assignments_body : assignments (t.body kind) = [(kind.key.chars, inQuotes t.text)] := by
  have hlines : Text.lines (t.body kind) = [[], (t.asAttribute kind).line] := by
    rw [body, Text.lines_feed, Text.lines_append (t.asAttribute kind).isLineBreak_line]
    rfl
  have hline : assignment? (t.asAttribute kind).line = some (kind.key.chars, inQuotes t.text) :=
    (t.asAttribute kind).assignment?_line
  rw [assignments, split_of_isFlat (t.isFlat_body kind), hlines, List.filterMap_cons_none rfl,
    List.filterMap_cons_some hline, List.filterMap_nil]

theorem details_body :
    details (t.body .description) = .ok [("description", .str (String.ofList t.shown))] := by
  have hunquote := unquote?_inQuotes t.isLineText_text
  rw [details, assignments_body]
  unfold shown
  cases htext : t.text with
  | nil => rfl
  | cons c cs =>
    rw [htext] at hunquote
    rw [List.foldlM_cons]
    have hadd : addDetail [] CaptionKind.description.key.chars (inQuotes (c :: cs)) =
        .ok [("description", .str (String.ofList (c :: cs)))] := by
      rw [addDetail, if_neg (by decide), if_neg (by decide), if_pos (by decide), hunquote]
      rfl
    exact bind_eq_ok hadd rfl

theorem moduleSource_body : moduleSource (t.body .source) = t.shown := by
  have hunquote := unquote?_inQuotes t.isLineText_text
  rw [moduleSource, assignments_body]
  unfold shown
  cases htext : t.text with
  | nil => rfl
  | cons c cs =>
    rw [htext] at hunquote
    rw [List.foldl_cons, List.foldl_nil]
    simp only [hunquote]
    rfl

end Caption

/-! ## Their blocks -/

namespace Caption

variable (kind : CaptionKind) (t : Caption)

/-- The lines of the block. -/
def lines : List (List Char) :=
  [(t.block kind).heading kind.keyword.toList ++ ['{'], (t.asAttribute kind).line, ['}']]

theorem chars_block : (t.block kind).chars kind.keyword.toList = unlines (t.lines kind) := by
  rw [BlockText.chars, lines, unlines_cons, unlines_cons, unlines_cons]
  simp [block, body, unlines]

/-- None of them is a header of a keyword that begins differently. -/
theorem isNoHeader_of_mem_lines {k : Char} {ks : List Char} (h : IsKeyword (k :: ks))
    (hk : k ∉ kind.keyword.toList.head?) : ∀ line ∈ t.lines kind, IsNoHeader (k :: ks) line := by
  have hheading := (t.block kind).isHeading_heading.feed_not_mem kind.isKeyword_keyword
  obtain ⟨first, rest, hkeyword⟩ := List.exists_cons_of_ne_nil kind.isKeyword_keyword.ne_nil
  have hgap : isGap first = false :=
    kind.isKeyword_keyword.isGap_eq_false first (by simp [hkeyword])
  have hne : k ≠ first := by
    rintro rfl
    exact hk (by simp [hkeyword])
  rw [lines, List.forall_mem_cons, List.forall_mem_cons, List.forall_mem_singleton]
  -- Only the heading begins with a keyword, and this is another one.
  refine ⟨⟨by simp [hheading], fun rest => ?_⟩, ?_, ⟨by decide, fun rest => header?_closeBrace h _⟩⟩
  · rw [BlockText.heading, hkeyword]
    exact header?_eq_none_of_ne hgap hne
  · exact ⟨(t.asAttribute kind).feed_not_mem_line, (t.asAttribute kind).header?_line h⟩

end Caption

section Blocks

variable (kind : CaptionKind) (ts : List Caption)

/-- The blocks of captions have their names and bodies. -/
theorem forall₂_blocks_captions : List.Forall₂
    (fun block t => block.labels = [String.ofList t.name] ∧ block.body = t.body kind)
    (blocks kind.keyword (captions kind ts)) ts := by
  have hblocks := @closedBlocks_written _ kind.isKeyword_keyword (ts.map (Caption.block kind)) _ _
    HasLexemes.nil _ (List.nil_append _).symm 0 (Nat.zero_le _)
  rw [List.map_map, ← List.forall₂_eq_eq_eq, List.forall₂_map_left_iff,
    List.forall₂_map_right_iff] at hblocks
  exact hblocks.imp fun block t heq => Prod.mk.inj heq

/-- They are no blocks of a keyword that begins differently. -/
theorem blocks_captions_of_ne {keyword : String} {k : Char} {ks : List Char}
    (hchars : keyword.toList = k :: ks) (h : IsKeyword (k :: ks))
    (hk : k ∉ kind.keyword.toList.head?) : blocks keyword (captions kind ts) = [] := by
  have hlines : captions kind ts = unlines (ts.flatMap (Caption.lines kind)) ++ [] := by
    rw [captions, written, List.flatMap_map, unlines, List.flatMap_assoc, List.append_nil]
    exact List.flatMap_congr fun t _ => t.chars_block kind
  have hnone : ∀ line ∈ ts.flatMap (Caption.lines kind), IsNoHeader (k :: ks) line := by
    intro line hline
    obtain ⟨t, -, hline⟩ := List.mem_flatMap.mp hline
    exact t.isNoHeader_of_mem_lines kind h hk line hline
  rw [blocks, headers, hchars, hlines, headersFrom_unlines hnone]
  rfl

end Blocks

/-! ## What is read -/

/-- The entry of a block under its name. -/
def Caption.entry (f : Caption → Value) (t : Caption) : String × Value :=
  (String.ofList t.name, f t)

theorem nodup_keys_entries (f : Caption → Value) {ts : List Caption}
    (h : (ts.map Caption.name).Nodup) : (Entries.keys (ts.map (Caption.entry f))).Nodup := by
  have hkeys : Entries.keys (ts.map (Caption.entry f)) =
      (ts.map Caption.name).map String.ofList := by
    simp [Entries.keys, Caption.entry, Function.comp_def]
  rw [hkeys]
  exact Resource.nodup_map_ofList h

/-- Entries under different names go to the end, one after the other. -/
theorem foldlM_eq_ok_append {step : Entries Value → Block → Except NumberError (Entries Value)}
    {f : Caption → Value} {bs : List Block} {ts : List Caption}
    (h : List.Forall₂ (fun block t => ∀ found : Entries Value,
      step found block = .ok (found.insert (String.ofList t.name) (f t))) bs ts)
    {found : Entries Value} (hkeys : (Entries.keys (found ++ ts.map (Caption.entry f))).Nodup) :
    bs.foldlM step found = .ok (found ++ ts.map (Caption.entry f)) := by
  induction h generalizing found with
  | nil =>
    rw [List.map_nil, List.append_nil]
    rfl
  | @cons block t bs ts hblock _ ih =>
    -- The keys so far and those to come are different, so the new entry goes to the end.
    have hnew : String.ofList t.name ∉ found.keys := by
      rw [Entries.keys, List.map_append, List.nodup_append] at hkeys
      exact fun hmem => hkeys.2.2 _ hmem _ List.mem_cons_self rfl
    have hstep := hblock found
    rw [Entries.insert_of_not_mem _ hnew] at hstep
    rw [List.map_cons, List.append_cons] at hkeys ⊢
    rw [List.foldlM_cons]
    exact bind_eq_ok hstep (ih hkeys)

theorem foldl_eq_append {step : Entries Value → Block → Entries Value} {f : Caption → Value}
    {bs : List Block} {ts : List Caption}
    (h : List.Forall₂ (fun block t => ∀ found : Entries Value,
      step found block = found.insert (String.ofList t.name) (f t)) bs ts)
    {found : Entries Value} (hkeys : (Entries.keys (found ++ ts.map (Caption.entry f))).Nodup) :
    bs.foldl step found = found ++ ts.map (Caption.entry f) := by
  have hall := foldlM_eq_ok_append (h.imp fun block t hstep found =>
    congrArg (@Except.ok NumberError _) (hstep found)) hkeys
  exact Except.ok.inj ((List.foldlM_pure (m := Except NumberError)).symm.trans hall)

/-- Blocks with different names are entries under these. -/
theorem byName_eq_map {value : String → Block → Value} {f : Caption → Value} {bs : List Block}
    {ts : List Caption} (h : List.Forall₂ (fun block t => block.labels = [String.ofList t.name] ∧
      value (String.ofList t.name) block = f t) bs ts) (hnames : (ts.map Caption.name).Nodup) :
    byName value bs = ts.map (Caption.entry f) := by
  refine @foldl_eq_append _ f bs ts ?_ [] (nodup_keys_entries f hnames)
  exact h.imp fun block t hblock found => by simp only [hblock.1, hblock.2]

/-- Only variables and modules are found among captions. -/
theorem configuration_captions (kind : CaptionKind) (ts : List Caption) :
    configuration (captions kind ts) =
      .ok (filled "variable" (byName (fun name _ => named name)
          (blocks "variable" (captions kind ts))) ++
        filled "module" (byName moduleEntry (blocks "module" (captions kind ts)))) := by
  have hproviders : blocks "provider" (captions kind ts) = [] :=
    blocks_captions_of_ne kind ts rfl ⟨by decide, by decide⟩ (by cases kind <;> decide)
  have hresources : blocks "resource" (captions kind ts) = [] :=
    blocks_captions_of_ne kind ts rfl ⟨by decide, by decide⟩ (by cases kind <;> decide)
  have hdata : blocks "data" (captions kind ts) = [] :=
    blocks_captions_of_ne kind ts rfl ⟨by decide, by decide⟩ (by cases kind <;> decide)
  rw [configuration, hproviders, hresources, hdata]
  rfl

section Read

variable {ts : List Caption} (h : (ts.map Caption.name).Nodup)

include h

/-- The descriptions of variables. -/
theorem variableDetails_captions : variableDetails (captions .description ts) =
    .ok (ts.map (Caption.entry fun t => .map [("description", .str (String.ofList t.shown))])) := by
  refine @foldlM_eq_ok_append _ _ _ ts ?_ [] (nodup_keys_entries _ h)
  refine (forall₂_blocks_captions .description ts).imp fun block t hblock found => ?_
  simp only [hblock.1, hblock.2, t.details_body]
  rfl

/-- Of a variable the tree holds the name only. -/
theorem configuration_descriptions : configuration (captions .description ts) =
    .ok (filled "variable" (ts.map (Caption.entry fun t => named (String.ofList t.name)))) := by
  have hmodules : blocks "module" (captions .description ts) = [] :=
    blocks_captions_of_ne .description ts rfl ⟨by decide, by decide⟩ (by decide)
  have hvariables :
      byName (fun name _ => named name) (blocks "variable" (captions .description ts)) =
        ts.map (Caption.entry fun t => named (String.ofList t.name)) :=
    byName_eq_map ((forall₂_blocks_captions .description ts).imp
      fun _ _ hblock => ⟨hblock.1, rfl⟩) h
  rw [configuration_captions, hmodules, hvariables]
  exact congrArg Except.ok (List.append_nil _)

/-- Of a module it holds the source, too. -/
theorem configuration_sources : configuration (captions .source ts) =
    .ok (filled "module" (ts.map (Caption.entry fun t => .map
      [("name", .str (String.ofList t.name)), ("source", .str (String.ofList t.shown))]))) := by
  have hvariables : blocks "variable" (captions .source ts) = [] :=
    blocks_captions_of_ne .source ts rfl ⟨by decide, by decide⟩ (by decide)
  have hmodules : byName moduleEntry (blocks "module" (captions .source ts)) =
      ts.map (Caption.entry fun t => .map
        [("name", .str (String.ofList t.name)), ("source", .str (String.ofList t.shown))]) := by
    refine byName_eq_map ((forall₂_blocks_captions .source ts).imp fun block t hblock =>
      ⟨hblock.1, ?_⟩) h
    rw [moduleEntry, hblock.2, t.moduleSource_body]
  rw [configuration_captions, hvariables, hmodules]
  rfl

end Read

end Schematic.Hcl
