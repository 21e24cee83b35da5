import Schematic.Proofs.Document.Loaded
import Schematic.Proofs.Hcl.Plain
import Schematic.Proofs.Json.Reader
import Schematic.Proofs.Yaml.Plain

/-!
# Which documents are plain

Documents are meant to hold text, truth values, numbers, lists and mappings only. Those that are
written as blocks or in JSON do. In YAML there are byte strings, sets and pairs besides, and these
are left in the tree, so a document is plain exactly if the data of its text hold none of them.

## Main definitions

- `Document.isPlain` — the tree and all documents of a text are plain

## Main statements

- `isPlain_iff_of_parse` — which documents are plain
- `not_isPlain_of_parse` — not all of them are
-/

namespace Schematic

open Parse

/-- The tree and all documents are plain trees. -/
def Document.isPlain (doc : Document) : Bool :=
  doc.root.isPlain && doc.documents.all Value.isPlain

/-! ## Documents formed of values -/

section Formed

variable {room : Room} {text : String} {values : List Value} {source : Source} {doc : Document}
  (h : ofValues room text values source = .ok doc)

include h

theorem source_of_ofValues : doc.source = source := by
  rcases formed_of_ofValues h with ⟨tree, rest, format, rfl, -, rfl⟩ | ⟨-, rfl⟩ <;> rfl

/-- A document is plain if its values are; without a mapping in front nothing is left of them. -/
theorem isPlain_ofValues_iff : doc.isPlain = true ↔
    ∀ first rest, values = first :: rest → first.isMap = true →
      ∀ v ∈ first :: rest, v.isPlain = true := by
  rcases formed_of_ofValues h with ⟨tree, rest, format, rfl, -, rfl⟩ | ⟨hnone, rfl⟩
  · have hforms : (∀ first more, Value.map tree :: rest = first :: more → first.isMap = true →
        ∀ v ∈ first :: more, v.isPlain = true) ↔
          ∀ v ∈ Value.map tree :: rest, v.isPlain = true := by
      refine ⟨fun hall => hall _ _ rfl rfl, ?_⟩
      rintro hall _ _ ⟨⟩ -
      exact hall
    rw [hforms, List.forall_mem_cons]
    cases rest <;> simp [Document.isPlain, Document.root]
  · refine iff_of_true rfl fun first rest heq hmap => ?_
    cases first with
    | map tree => exact absurd heq (hnone tree rest)
    | _ => cases hmap

end Formed

/-- Values are plain in this way exactly if the data are that they were made of. -/
theorem isPlain_values_iff {data : List Yaml.Datum} {values : List Value}
    (h : data.mapM Yaml.Datum.toValue = .ok values) :
    (∀ first rest, values = first :: rest → first.isMap = true →
      ∀ v ∈ first :: rest, v.isPlain = true) ↔
    ∀ first rest, data = first :: rest → first.isMapping = true →
      ∀ d ∈ first :: rest, d.isPlain = true := by
  have hall := forall_mem_iff_of_mapM_eq_ok h fun d v => Yaml.Datum.isPlain_toValue_iff d
  cases data with
  | nil =>
    cases h
    simp
  | cons d ds =>
    rw [List.mapM_cons] at h
    obtain ⟨v, hv, h⟩ := exists_of_bind_eq_ok h
    obtain ⟨vs, -, h⟩ := exists_of_bind_eq_ok h
    obtain rfl := Except.ok.inj h
    have hmap := Yaml.Datum.isMap_toValue hv
    constructor
    · rintro hplain _ _ ⟨⟩ hfirst
      exact hall.mp (hplain v vs rfl (hmap.trans hfirst))
    · rintro hplain _ _ ⟨⟩ hfirst
      exact hall.mpr (hplain d ds rfl (hmap.symm.trans hfirst))

/-! ## Texts -/

/-- Documents that are not YAML are plain. Those of YAML are plain exactly if no datum of the text
holds a byte string, a set or a pair, or if the text has no mapping in front, which leaves nothing
of it. -/
theorem isPlain_iff_of_parse {stack : Stack} {text : String} {doc : Document}
    (h : parse stack text = .ok doc) :
    (doc.source ≠ .yaml → doc.isPlain = true) ∧
    (doc.source = .yaml → ∃ data,
      Yaml.Reader.dataOfText ((stack.room 1).yaml text) text.toList = .ok data ∧
      (doc.isPlain = true ↔ ∀ first rest, data.filter Yaml.Reader.isPresent = first :: rest →
        first.isMapping = true → ∀ d ∈ first :: rest, d.isPlain = true)) := by
  -- Only YAML has data that are not plain.
  rcases loaded_of_parse h with ⟨tree, htree, rfl⟩ | ⟨values, source, hload, hvalues⟩
  · refine ⟨fun _ => ?_, fun hsource => by cases hsource⟩
    show ((Value.map tree).isPlain && true) = true
    rw [Hcl.isPlain_configuration htree]
    rfl
  · rw [source_of_ofValues hvalues, isPlain_ofValues_iff hvalues]
    rcases read_of_load hload with ⟨rfl, value, rfl, hread⟩ | ⟨rfl, hread⟩
    · refine ⟨fun _ => ?_, fun hsource => by cases hsource⟩
      rintro _ _ ⟨⟩ - v hv
      rw [List.mem_singleton.mp hv]
      exact Json.isPlain_of_read hread
    · refine ⟨fun hsource => absurd rfl hsource, fun _ => ?_⟩
      obtain ⟨data, hdata, hmapM⟩ := Yaml.exists_data_of_read hread
      exact ⟨data, hdata, isPlain_values_iff hmapM⟩

/-- A mapping with a set of names. -/
def namesText : String :=
  "names: !!set \x7ba, b\x7d\n"

theorem isPlain_iff_of_parse_namesText : ∃ doc, parse .standard namesText = .ok doc ∧
    doc.source = .yaml ∧ doc.isPlain = false ∧ ∃ data,
      Yaml.Reader.dataOfText ((Stack.standard.room 1).yaml namesText) namesText.toList = .ok data ∧
        ∃ d ∈ data, d.isPlain = false := by
  have hfields : (parse .standard namesText).toOption.map (fun doc => (doc.source, doc.isPlain)) =
      some (.yaml, false) := by
    decide +kernel
  obtain ⟨doc, hparse, hfields⟩ := exists_of_toOption_map_eq_some hfields
  obtain ⟨hsource, hplain⟩ := Prod.mk.inj hfields
  obtain ⟨data, hdata, hiff⟩ := (isPlain_iff_of_parse hparse).2 hsource
  refine ⟨doc, hparse, hsource, hplain, data, hdata, ?_⟩
  -- Were all data plain, the document would be.
  by_contra hnone
  refine absurd (hiff.mpr fun first rest hpresent _ d hd => ?_) (by simp [hplain])
  rw [← hpresent] at hd
  by_contra hd'
  exact hnone ⟨d, (List.mem_filter.mp hd).1, Bool.eq_false_iff.mpr hd'⟩

/-- A set is left in the tree. -/
theorem not_isPlain_of_parse :
    ¬∀ text doc, parse .standard text = .ok doc → doc.isPlain = true := by
  intro h
  have hset : (parse .standard namesText).toOption.map Document.isPlain = some false := by
    decide +kernel
  obtain ⟨doc, hparse, hplain⟩ := exists_of_toOption_map_eq_some hset
  exact absurd (h namesText doc hparse) (by simp [hplain])

end Schematic
