import Schematic.Proofs.Document.Answer
import Schematic.Proofs.Json.Words

/-!
# Trees that name a resource

The last format has no field to go by. Its trees are told by the JSON text of the tree, in which the
beginnings of resource names are looked for in letters of either case. Such a beginning is a word
that is part of nothing but strings and keys, so the search through the text is one through these,
at any depth of the tree. It needs the text, however, and a tree has none if an integer of it is too
long to be written or if there is no room for its levels.

## Main definitions

- `HasMarker` — a text has the beginning of a resource name in it
- `NamesResource` — so has a string or a key of a tree

## Main statements

- `namesResource_eq_ok_iff` — the search in the JSON text is a search in the tree
- `ofTree_eq_ok_iff` — the format of a plain tree whose fields tell none
- `not_ofTree_eq_ok_of_namesResource` — a tree that names a resource need not have a format
-/

namespace Schematic

open Format (resourceMarkers)
open Json (HasText IsResourceWord Mentions)

/-- A text has the beginning of a resource name in it, in letters of either case. -/
def HasMarker (s : String) : Prop :=
  ∃ marker ∈ resourceMarkers, marker.toList <:+: s.toList.map Char.toLower

/-- A string or a key of a tree has one, at any depth. -/
def NamesResource (tree : Value) : Prop :=
  ∃ s, HasText tree s ∧ HasMarker s

/-! ## Markers are words -/

/-- Only capital letters are changed to lower case. -/
theorem toLower_cases (c : Char) : c.toLower = c ∨
    (0x41 ≤ c.toNat ∧ c.toNat ≤ 0x5A) ∧ c.toLower.toNat = c.toNat + 32 := by
  unfold Char.toLower
  split
  · next h =>
    have hlow : 0x41 ≤ c.toNat := UInt32.le_iff_toNat_le.mp h.1
    have hhigh : c.toNat ≤ 0x5A := UInt32.le_iff_toNat_le.mp h.2
    refine .inr ⟨⟨hlow, hhigh⟩, ?_⟩
    show (c.val + 32).toNat = c.toNat + 32
    rw [UInt32.toNat_add]
    exact Nat.mod_eq_of_lt (show c.toNat + 32 < _ by omega)
  · exact .inl rfl

theorem isIdentStart_of_toLower {c : Char} (h : Text.isIdentStart c.toLower = true) :
    Text.isIdentStart c = true := by
  rcases toLower_cases c with hself | ⟨hcapital, -⟩
  · rwa [hself] at h
  · rw [Text.isIdentStart, Text.isAlpha_iff_toNat.mpr (.inl hcapital), Bool.true_or]

theorem eq_underscore_of_toLower {c : Char} (h : c.toLower = '_') : c = '_' := by
  rcases toLower_cases c with hself | ⟨hcapital, hcode⟩
  · rwa [hself] at h
  · have hunderscore : '_'.toNat = 0x5F := rfl
    rw [h] at hcode
    omega

theorem eq_or_eq_of_toLower {c : Char} (h : c.toLower = 'i') : c = 'i' ∨ c = 'I' := by
  rcases toLower_cases c with hself | ⟨-, hcode⟩
  · exact .inl (hself ▸ h)
  · have hlower : 'i'.toNat = 'I'.toNat + 32 := rfl
    rw [h, hlower] at hcode
    exact .inr (Char.toNat_inj.mp (Nat.add_right_cancel hcode).symm)

/-- A marker in letters of either case is part of nothing but strings and keys. -/
theorem isResourceWord_of_map_toLower {marker : String} (hmarker : marker ∈ resourceMarkers)
    {word : List Char} (h : marker.toList = word.map Char.toLower) : IsResourceWord word := by
  have hchars : ∀ marker ∈ resourceMarkers, (∀ c ∈ marker.toList, Text.isIdentStart c = true) ∧
      marker.toList.head? = some 'i' ∧ '_' ∈ marker.toList := by
    decide
  obtain ⟨hstart, hhead, hunderscore⟩ := hchars marker hmarker
  rw [h] at hstart hhead hunderscore
  refine ⟨fun c hc => ?_, ?_, ?_⟩
  · exact isIdentStart_of_toLower (hstart _ (List.mem_map_of_mem hc))
  · cases word with
    | nil => cases hhead
    | cons c rest => exact ⟨c, rest, rfl, eq_or_eq_of_toLower (Option.some.inj hhead)⟩
  · obtain ⟨c, hc, heq⟩ := List.mem_map.mp hunderscore
    exact eq_underscore_of_toLower heq ▸ hc

/-- A tree names a resource if it mentions a marker in letters of some case. -/
theorem namesResource_iff_mentions {tree : Value} : NamesResource tree ↔
    ∃ marker ∈ resourceMarkers, ∃ word, marker.toList = word.map Char.toLower ∧
      Mentions tree word := by
  constructor
  · rintro ⟨s, hs, marker, hmarker, hinfix⟩
    obtain ⟨word, hword, heq⟩ := List.infix_map_iff.mp hinfix
    exact ⟨marker, hmarker, word, heq, s, hs, hword⟩
  · rintro ⟨marker, hmarker, word, heq, s, hs, hword⟩
    exact ⟨s, hs, marker, hmarker, List.infix_map_iff.mpr ⟨word, hword, heq⟩⟩

/-! ## The search -/

/-- The search in the JSON text of a plain tree is one in its strings and keys. -/
theorem namesResource_eq_ok_iff {room : Room} {tree : Value} (hplain : tree.isPlain = true)
    {found : Bool} : Format.namesResource room tree = .ok found ↔
      (tree.isWritable = true ∧ tree.nesting ≤ room.written tree) ∧
        (found = true ↔ NamesResource tree) := by
  have hsearch {written : List Char}
      (hwritten : Json.write (room.written tree) tree = .ok written) :
      (resourceMarkers.any fun marker =>
        Text.occursIn marker.toList (written.map Char.toLower)) = true ↔ NamesResource tree := by
    rw [List.any_eq_true, namesResource_iff_mentions]
    refine exists_congr fun marker => and_congr_right fun hmarker => ?_
    rw [Text.occursIn_iff, List.infix_map_iff]
    refine exists_congr fun word => ?_
    rw [and_comm]
    refine and_congr_right fun heq => ?_
    exact Json.infix_write_iff (isResourceWord_of_map_toLower hmarker heq) tree hplain hwritten
  have hmap : Format.namesResource room tree =
      (Json.write (room.written tree) tree).map fun written =>
        resourceMarkers.any fun marker =>
          Text.occursIn marker.toList (written.map Char.toLower) := by
    unfold Format.namesResource
    cases Json.write (room.written tree) tree <;> rfl
  rw [hmap, map_eq_ok_iff, ← Json.succeeds_write_iff]
  constructor
  · rintro ⟨written, hwritten, rfl⟩
    exact ⟨⟨written, hwritten⟩, hsearch hwritten⟩
  · rintro ⟨⟨written, hwritten⟩, hfound⟩
    exact ⟨written, hwritten, Bool.eq_iff_iff.mpr ((hsearch hwritten).trans hfound.symm)⟩

/-- A plain mapping whose fields tell no format is of the last one if a string or a key of it names
a resource, and has no format otherwise, unless an integer of it is too long to be written or there
is no room for its levels. -/
theorem ofTree_eq_ok_iff {room : Room} {tree : Value} {isJson : Bool} (hmap : tree.isMap = true)
    (hplain : tree.isPlain = true) (hnone : Format.ofFields? tree isJson = none) :
    (Format.ofTree room tree isJson = .ok .ibmCloud ↔
        (tree.isWritable = true ∧ tree.nesting ≤ room.written tree) ∧ NamesResource tree) ∧
      (Format.ofTree room tree isJson = .ok .unknown ↔
        (tree.isWritable = true ∧ tree.nesting ≤ room.written tree) ∧ ¬NamesResource tree) ∧
      (Succeeds (Format.ofTree room tree isJson) ↔
        tree.isWritable = true ∧ tree.nesting ≤ room.written tree) := by
  have hsearch : Format.ofTree room tree isJson =
      (Format.namesResource room tree).map fun found =>
        if found then .ibmCloud else .unknown := by
    unfold Format.ofTree
    rw [hmap, hnone, if_neg (by decide)]
    cases Format.namesResource room tree with
    | error e => rfl
    | ok found => cases found <;> rfl
  have hformat {format : Format} : Format.ofTree room tree isJson = .ok format ↔
      ∃ found, ((tree.isWritable = true ∧ tree.nesting ≤ room.written tree) ∧
          (found = true ↔ NamesResource tree)) ∧
        (if found then Format.ibmCloud else .unknown) = format := by
    rw [hsearch, map_eq_ok_iff]
    simp only [namesResource_eq_ok_iff hplain]
  refine ⟨?_, ?_, ?_⟩
  · simp [hformat]
  · simp [hformat]
  · cases tree with
    | map es => simp [succeeds_ofTree_iff, hnone]
    | _ => cases hmap

/-- A tree that names a resource in a key of a mapping in a list, in letters of both cases. -/
def nestedNameTree : Value :=
  .map [("note", .str "i\x08m_"), ("items", .list [.bool true, .map [("Ibmcloud_VPC", .null)]])]

theorem ofTree_eq_ok_iff_nestedNameTree : nestedNameTree.isMap = true ∧
    nestedNameTree.isPlain = true ∧ Format.ofFields? nestedNameTree true = none ∧
    Format.ofTree (Stack.standard.room 2) nestedNameTree true = .ok .ibmCloud := by
  have hmap : nestedNameTree.isMap = true := rfl
  have hplain : nestedNameTree.isPlain = true := rfl
  have hnone : Format.ofFields? nestedNameTree true = none := by decide
  have hmarker : HasMarker "Ibmcloud_VPC" :=
    ⟨"ibmcloud_", by simp [resourceMarkers], [], "vpc".toList, rfl⟩
  have hnames : NamesResource nestedNameTree := by
    refine ⟨"Ibmcloud_VPC", ?_, hmarker⟩
    apply HasText.value (List.mem_cons_of_mem _ List.mem_cons_self)
    apply HasText.item (List.mem_cons_of_mem _ List.mem_cons_self)
    exact .key List.mem_cons_self
  have hwritable : nestedNameTree.isWritable = true := by decide
  have hnesting : nestedNameTree.nesting ≤ (Stack.standard.room 2).written nestedNameTree := by
    decide
  exact ⟨hmap, hplain, hnone,
    (ofTree_eq_ok_iff hmap hplain hnone).1.mpr ⟨⟨hwritable, hnesting⟩, hnames⟩⟩

/-- A tree that names a resource in the key of an integer. -/
def sizeTree (n : Int) : Value :=
  .map [("ibm_size", .int n)]

/-- If the integer is too long to be written, the tree has no format, however much room there is,
though its fields tell none. -/
theorem not_ofTree_eq_ok_of_namesResource : ¬ ∃ room : Room, ∀ (tree : Value) (isJson : Bool),
    tree.isMap = true → tree.isPlain = true → Format.ofFields? tree isJson = none →
      (NamesResource tree → Format.ofTree room tree isJson = .ok .ibmCloud) ∧
        (¬NamesResource tree → Format.ofTree room tree isJson = .ok .unknown) := by
  rintro ⟨room, h⟩
  obtain ⟨n, hlong⟩ : ∃ n : Int, n.natAbs = Nat.pow 10 digitLimit := ⟨_, Int.natAbs_natCast _⟩
  have hnone : Format.ofFields? (sizeTree n) false = none := rfl
  have hmarker : HasMarker "ibm_size" :=
    ⟨"ibm_", by simp [resourceMarkers], [], "size".toList, rfl⟩
  have hnames : NamesResource (sizeTree n) := ⟨"ibm_size", .key List.mem_cons_self, hmarker⟩
  have hformat := (h (sizeTree n) false rfl rfl hnone).1 hnames
  have hwritable := (succeeds_ofTree_iff.mp ⟨_, hformat⟩ hnone).1
  have hint : (Value.int n).isWritable = true :=
    Value.isWritable_map_iff.mp hwritable ("ibm_size", .int n) List.mem_cons_self
  rw [Value.isWritable, hasShortDigits_iff, hlong] at hint
  exact Nat.lt_irrefl _ hint

end Schematic
