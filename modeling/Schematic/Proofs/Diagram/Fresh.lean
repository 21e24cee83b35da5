import Mathlib.Data.List.Induction
import Mathlib.Data.List.Nodup
import Mathlib.Data.List.Perm.Subperm
import Schematic.Proofs.Diagram.Identifier
import Schematic.Proofs.Diagram.Reading

/-!
# Identifiers of groups

Edges point at nodes only, so a group whose name is already that of a node takes another identifier
when the diagram is written: the first free one of a series. The series never repeats itself, and
finitely many identifiers are taken, so one is free. What is found differs from all nodes, those
that only edges name included, and from the groups written before, and it is an identifier itself.

## Main definitions

- `Search` — trying one candidate after the other until one is free
- `Call`, `ofCalls` — drawing with any class names, and what is drawn
- `groupIdsOf` — the identifiers on the lines of groups
- `IsNaming` — identifiers of groups as they should be

## Main statements

- `candidate_injective` — the series does not repeat itself
- `search_freshId` — the search ends, and with the fresh identifier
- `isNaming_freshIds` — the identifiers that are found one after the other
- `isNaming_ofCalls` — the groups of everything that is drawn
-/

namespace Schematic

/-! ## Longer identifiers -/

namespace Identifier

theorem joined_append_singleton {ws : List (List Char)} (hne : ws ≠ []) (word : List Char) :
    joined (ws ++ [word]) = joined ws ++ '_' :: word := by
  induction ws with
  | nil => exact absurd rfl hne
  | cons first ws ih =>
    cases ws with
    | nil => rw [List.singleton_append, joined_cons_cons, joined_singleton, joined_singleton]
    | cons second ws =>
      rw [List.cons_append, List.cons_append, joined_cons_cons, ← List.cons_append,
        ih (List.cons_ne_nil _ _), joined_cons_cons, List.append_assoc, List.cons_append]

/-- Behind marked words no mark is needed. -/
theorem marked_append_singleton (ws : List (List Char)) (word : List Char) :
    marked (marked ws ++ [word]) = marked ws ++ [word] := by
  have hn : Char.isAlpha 'n' = true := by decide
  cases ws with
  | nil => simp [marked, hn]
  | cons first more =>
    by_cases halpha : (first.head?.any Char.isAlpha) = false
    · simp [marked, halpha, hn]
    · by_cases hreserved : more = [] ∧ isReserved first = true
      · simp [marked, halpha, hreserved, hn]
      · simp [marked, halpha, hreserved]

end Identifier

open Identifier

/-- An identifier with one more word is its own identifier. -/
theorem identifier_append_word {id : String} (name : String) {word : List Char} (hne : word ≠ [])
    (hplain : '_' ∉ word) (hallowed : ∀ c ∈ word, isAllowed c = true)
    (hid : id.toList = (identifier name).toList ++ '_' :: word) : identifier id = id := by
  have hname : (identifier name).toList = joined (marked (words name.toList)) := by
    rw [identifier, String.toList_ofList, ofChars_eq_joined]
  rw [← String.toList_inj, identifier, String.toList_ofList, ofChars_eq_joined, hid,
    words_append_underscore, words_identifier, words_of_forall hne hplain hallowed,
    marked_append_singleton, joined_append_singleton (marked_ne_nil _), hname]

namespace Diagram

/-! ## The candidates -/

/-- The last word of a candidate that is not the first one. -/
def candidateWord : Nat → List Char
  | 0 => "group".toList
  | n + 1 => "group".toList ++ Nat.toDigits 10 (n + 2)

theorem toList_candidate_succ (id : String) (n : Nat) :
    (candidate id (n + 1)).toList = id.toList ++ '_' :: candidateWord n := by
  cases n with
  | zero =>
    rw [candidate, String.toList_append]
    rfl
  | succ n =>
    simp only [candidate, Nat.toString_eq_ofList_toDigits, String.toList_append,
      String.toList_ofList, List.append_assoc]
    rfl

theorem candidateWord_ne_nil (n : Nat) : candidateWord n ≠ [] := by
  have hgroup : "group".toList ≠ [] := by decide
  cases n with
  | zero => exact hgroup
  | succ n => exact List.append_ne_nil_of_left_ne_nil hgroup _

theorem isAllowed_candidateWord (n : Nat) :
    '_' ∉ candidateWord n ∧ ∀ c ∈ candidateWord n, isAllowed c = true := by
  have hgroup : '_' ∉ "group".toList ∧ ∀ c ∈ "group".toList, isAllowed c = true := by decide
  cases n with
  | zero => exact hgroup
  | succ n =>
    have hword : candidateWord (n + 1) = "group".toList ++ Nat.toDigits 10 (n + 2) := rfl
    rw [hword, List.mem_append, List.forall_mem_append]
    refine ⟨not_or.mpr ⟨hgroup.1, Nat.underscore_not_in_toDigits⟩, hgroup.2, fun c hc => ?_⟩
    exact isAllowed_of_mem_toDigits hc

theorem candidateWord_injective : Function.Injective candidateWord := by
  intro m n h
  cases m with
  | zero =>
    cases n with
    | zero => rfl
    | succ n => exact absurd (List.self_eq_append_right.mp h) Nat.toDigits_ne_nil
  | succ m =>
    cases n with
    | zero => exact absurd (List.append_right_eq_self.mp h) Nat.toDigits_ne_nil
    | succ n =>
      have hnumber : m + 2 = n + 2 := toDigits_injective (List.append_cancel_left h)
      omega

/-- The candidates for the identifier of a name are identifiers. -/
theorem identifier_candidate (name : String) (n : Nat) :
    identifier (candidate (identifier name) n) = candidate (identifier name) n := by
  cases n with
  | zero => exact identifier_identifier name
  | succ n =>
    obtain ⟨hplain, hallowed⟩ := isAllowed_candidateWord n
    exact identifier_append_word name (candidateWord_ne_nil n) hplain hallowed
      (toList_candidate_succ _ n)

/-- No identifier is tried twice. -/
theorem candidate_injective (id : String) : Function.Injective (candidate id) := by
  have hlonger (n : Nat) : candidate id (n + 1) ≠ candidate id 0 := by
    intro h
    have hlength := congrArg List.length (congrArg String.toList h)
    rw [toList_candidate_succ, List.length_append, candidate] at hlength
    simp at hlength
  intro m n h
  cases m with
  | zero =>
    cases n with
    | zero => rfl
    | succ n => exact absurd h.symm (hlonger n)
  | succ m =>
    cases n with
    | zero => exact absurd h (hlonger m)
    | succ n =>
      rw [← String.toList_inj, toList_candidate_succ, toList_candidate_succ] at h
      have hword := (List.cons.inj (List.append_cancel_left h)).2
      exact congrArg Nat.succ (candidateWord_injective hword)

/-! ## The search -/

/-- Candidates are tried one after the other until one is not taken. -/
inductive Search (taken : String → Prop) (id : String) : Nat → String → Prop where
  | found {n : Nat} (h : ¬taken (candidate id n)) : Search taken id n (candidate id n)
  | next {n : Nat} {result : String} (h : taken (candidate id n))
      (hrest : Search taken id (n + 1) result) : Search taken id n result

namespace Search

variable {taken : String → Prop} {id result : String} {n : Nat}

theorem congr {taken' : String → Prop} (h : Search taken id n result)
    (heq : ∀ c, taken c ↔ taken' c) : Search taken' id n result := by
  induction h with
  | found hfree => exact .found fun h => hfree ((heq _).mpr h)
  | next htaken _ ih => exact .next ((heq _).mp htaken) ih

theorem exists_eq_candidate (h : Search taken id n result) : ∃ m, result = candidate id m := by
  induction h with
  | found _ => exact ⟨_, rfl⟩
  | next _ _ ih => exact ih

theorem not_taken (h : Search taken id n result) : ¬taken result := by
  induction h with
  | found hfree => exact hfree
  | next _ _ ih => exact ih

/-- The search goes on up to the first candidate that is not taken. -/
theorem of_forall {length : Nat} (htaken : ∀ m, m < n + length → taken (candidate id m))
    (hfree : ¬taken (candidate id (n + length))) :
    Search taken id n (candidate id (n + length)) := by
  induction length generalizing n with
  | zero => exact .found hfree
  | succ length ih =>
    have hsucc : n + (length + 1) = n + 1 + length := by omega
    rw [hsucc] at htaken hfree ⊢
    exact .next (htaken n (by omega)) (ih htaken hfree)

/-- What is not taken is found at once, and nothing that is taken is found. -/
theorem eq_iff (h : Search taken id 0 result) : result = id ↔ ¬taken id := by
  constructor
  · intro heq
    exact heq ▸ h.not_taken
  · intro hfree
    cases h with
    | found _ => rfl
    | next htaken _ => exact absurd htaken hfree

end Search

/-! ## Fresh identifiers -/

/-- More candidates than taken identifiers are not all taken. -/
theorem exists_candidate_not_mem (taken : List String) (id : String) :
    ∃ n, n < taken.length + 1 ∧ candidate id n ∉ taken := by
  by_contra hall
  push Not at hall
  have hnodup : ((List.range (taken.length + 1)).map (candidate id)).Nodup :=
    List.nodup_range.map (candidate_injective id)
  have hsubset : (List.range (taken.length + 1)).map (candidate id) ⊆ taken := by
    intro c hc
    obtain ⟨n, hn, rfl⟩ := List.mem_map.mp hc
    exact hall n (List.mem_range.mp hn)
  have hlength := (hnodup.subperm hsubset).length_le
  rw [List.length_map, List.length_range] at hlength
  omega

/-- The search ends, and with the fresh identifier. -/
theorem search_freshId (taken : List String) (id : String) :
    Search (· ∈ taken) id 0 (freshId taken id) := by
  obtain ⟨n, hn, hfree⟩ := exists_candidate_not_mem taken id
  unfold freshId
  simp only [List.find?_map]
  cases hfind : (List.range (taken.length + 1)).find?
      ((fun c => !taken.contains c) ∘ candidate id) with
  | none =>
    have htaken := List.find?_eq_none.mp hfind n (List.mem_range.mpr hn)
    simp [hfree] at htaken
  | some first =>
    obtain ⟨hfirst, -, hbefore⟩ := List.find?_range_eq_some.mp hfind
    have hsearch : Search (· ∈ taken) id 0 (candidate id (0 + first)) := by
      refine Search.of_forall (fun m hm => ?_) ?_
      · simpa using hbefore m (by omega)
      · simpa using hfirst
    rw [Nat.zero_add] at hsearch
    exact hsearch

@[simp] theorem length_freshIds (taken ids : List String) :
    (freshIds taken ids).length = ids.length := by
  induction ids generalizing taken with
  | nil => rfl
  | cons id ids ih => rw [freshIds, List.length_cons, ih, List.length_cons]

theorem not_mem_of_mem_freshIds {taken ids : List String} {c : String}
    (h : c ∈ freshIds taken ids) : c ∉ taken := by
  induction ids generalizing taken with
  | nil => cases h
  | cons id ids ih =>
    rcases List.mem_cons.mp h with rfl | h
    · exact (search_freshId taken id).not_taken
    · exact fun htaken => ih h (List.mem_cons_of_mem _ htaken)

theorem nodup_freshIds (taken ids : List String) : (freshIds taken ids).Nodup := by
  induction ids generalizing taken with
  | nil => exact List.nodup_nil
  | cons id ids ih =>
    -- What was found before is taken for those to come.
    exact List.nodup_cons.mpr ⟨fun h => not_mem_of_mem_freshIds h List.mem_cons_self, ih _⟩

/-- Every identifier is searched for among what is taken and what was found before. -/
theorem search_freshIds {taken ids : List String} {i : Nat} {id final : String}
    (hid : ids[i]? = some id) (hfinal : (freshIds taken ids)[i]? = some final) :
    Search (fun c => c ∈ taken ∨ c ∈ (freshIds taken ids).take i) id 0 final := by
  induction ids generalizing taken i with
  | nil => simp at hid
  | cons first ids ih =>
    rw [freshIds] at hfinal ⊢
    cases i with
    | zero =>
      rw [List.getElem?_cons_zero] at hid hfinal
      obtain rfl := Option.some.inj hid
      obtain rfl := Option.some.inj hfinal
      exact (search_freshId taken first).congr fun c => by simp
    | succ i =>
      rw [List.getElem?_cons_succ] at hid hfinal
      refine (ih hid hfinal).congr fun c => ?_
      rw [List.take_succ_cons, List.mem_cons, List.mem_cons]
      tauto

/-- The final identifiers of groups with names, while others are used for nodes. -/
structure IsNaming (names used final : List String) : Prop where
  length_eq : final.length = names.length
  nodup : final.Nodup
  unused : ∀ id ∈ final, id ∉ used
  isNodeId : ∀ id ∈ final, IsNodeId id.toList
  identifier_eq : ∀ id ∈ final, identifier id = id
  /-- Each one is what the search for its group ends with. -/
  search : ∀ (i : Nat) (name id : String), names[i]? = some name → final[i]? = some id →
    Search (fun c => c ∈ used ∨ c ∈ final.take i) (identifier name) 0 id
  /-- A group keeps the identifier of its name unless a node or an earlier group has it. -/
  kept : ∀ (i : Nat) (name id : String), names[i]? = some name → final[i]? = some id →
    (id = identifier name ↔ identifier name ∉ used ∧ identifier name ∉ final.take i)

/-- Which identifiers are used matters, and not how they are listed. -/
theorem IsNaming.congr {names used used' final : List String} (h : IsNaming names used final)
    (heq : ∀ id, id ∈ used ↔ id ∈ used') : IsNaming names used' final where
  length_eq := h.length_eq
  nodup := h.nodup
  unused := fun id hid hused => h.unused id hid ((heq id).mpr hused)
  isNodeId := h.isNodeId
  identifier_eq := h.identifier_eq
  search := fun i name id hname hid =>
    (h.search i name id hname hid).congr fun c => or_congr (heq c) Iff.rfl
  kept := by
    intro i name id hname hid
    rw [h.kept i name id hname hid, heq]

/-- Groups that ask for the identifiers of names have identifiers as they should. -/
theorem isNaming_freshIds (names used : List String) :
    IsNaming names used (freshIds used (names.map identifier)) := by
  have hsearch {i : Nat} {name id : String} (hname : names[i]? = some name)
      (hid : (freshIds used (names.map identifier))[i]? = some id) :
      Search (fun c => c ∈ used ∨ c ∈ (freshIds used (names.map identifier)).take i)
        (identifier name) 0 id := by
    refine search_freshIds ?_ hid
    rw [List.getElem?_map, hname]
    rfl
  have hidentifier : ∀ id ∈ freshIds used (names.map identifier), identifier id = id := by
    intro id hid
    obtain ⟨i, hi⟩ := List.mem_iff_getElem?.mp hid
    have hlt : i < names.length := by simpa using (List.getElem?_eq_some_iff.mp hi).1
    obtain ⟨n, rfl⟩ := (hsearch (List.getElem?_eq_getElem hlt) hi).exists_eq_candidate
    exact identifier_candidate _ n
  refine ⟨by simp, nodup_freshIds _ _, fun id => not_mem_of_mem_freshIds, ?_, hidentifier,
    fun i name id => hsearch, fun i name id hname hid => ?_⟩
  · intro id hid
    rw [← hidentifier id hid]
    exact isNodeId_identifier id
  · rw [(hsearch hname hid).eq_iff, not_or]

/-- The same for the groups of a diagram. -/
theorem isNaming_groupIds {d : Diagram} {names : List String}
    (h : d.wantedGroupIds = names.map identifier) : IsNaming names d.takenIds d.groupIds := by
  rw [groupIds, h]
  exact isNaming_freshIds names d.takenIds

/-! ## Drawing by calls -/

/-- A step of drawing, with a class name that need not be that of a style. -/
inductive Call where
  | openGroup (name title : String)
  | closeGroup
  | node (name : String) (label : List String) (style : Option String)
  | edge (link : Link)

/-- The diagram after a call. -/
def call (d : Diagram) : Call → Diagram
  | .openGroup name title => d.openGroup name title
  | .closeGroup => d.closeGroup
  | .node name label style => d.node name label style
  | .edge link => d.edge link.source link.target link.label link.dotted

/-- What is drawn by calls one after the other. -/
def ofCalls (kind : Kind) (styles : List String) (direction : String) (calls : List Call) :
    Diagram :=
  calls.foldl call { kind := kind, styles := styles, direction := direction }

namespace Call

def group? : Call → Option String
  | openGroup name _ => some name
  | _ => none

def node? : Call → Option String
  | node name _ _ => some name
  | _ => none

def link? : Call → Option Link
  | edge link => some link
  | _ => none

end Call

/-- The names of the groups that calls open, in order. -/
def groupNames (calls : List Call) : List String :=
  calls.filterMap Call.group?

/-- The identifiers that calls use for nodes: of those that they declare, and of those that they
connect. -/
def usedIds (calls : List Call) : List String :=
  (calls.filterMap Call.node?).map identifier ++
    (calls.filterMap Call.link?).flatMap fun link =>
      [identifier link.source, identifier link.target]

/-- The identifier that an event asks for on behalf of a group. -/
def openedId? : Event → Option String
  | .opened id _ => some id
  | _ => none

section Calls

variable (d : Diagram)

theorem wantedGroupIds_call (c : Call) :
    (d.call c).wantedGroupIds = d.wantedGroupIds ++ (c.group?.map identifier).toList := by
  cases c with
  | edge link => simp [call, wantedGroupIds, Call.group?]
  | openGroup name title => simp [call, wantedGroupIds, openGroup, Call.group?]
  | closeGroup => simp [call, wantedGroupIds, closeGroup, Call.group?]
  | node name label style => simp [call, wantedGroupIds, node, Call.group?]

theorem nodeIds_call (c : Call) :
    (d.call c).nodeIds = d.nodeIds ++ (c.node?.map identifier).toList := by
  cases c <;> simp [call, Call.node?]

theorem mem_edges_call {c : Call} {e : Edge} :
    e ∈ (d.call c).edges ↔ e ∈ d.edges ∨ ∃ link, c.link? = some link ∧ e = link.drawn := by
  cases c with
  | edge link => simp [call, mem_edges_edge, Call.link?]
  | _ => simp [call, openGroup, closeGroup, node, Call.link?]

end Calls

variable (kind : Kind) (styles : List String) (direction : String) (calls : List Call)

theorem ofCalls_append_singleton (c : Call) : ofCalls kind styles direction (calls ++ [c]) =
    (ofCalls kind styles direction calls).call c := by
  rw [ofCalls, List.foldl_append]
  rfl

theorem wantedGroupIds_ofCalls : (ofCalls kind styles direction calls).wantedGroupIds =
    (groupNames calls).map identifier := by
  induction calls using List.reverseRecOn with
  | nil => rfl
  | append_singleton calls c ih =>
    rw [ofCalls_append_singleton, wantedGroupIds_call, ih, groupNames, groupNames,
      List.filterMap_append, List.map_append]
    cases hgroup : c.group? <;> simp [hgroup]

theorem nodeIds_ofCalls : (ofCalls kind styles direction calls).nodeIds =
    (calls.filterMap Call.node?).map identifier := by
  induction calls using List.reverseRecOn with
  | nil => rfl
  | append_singleton calls c ih =>
    rw [ofCalls_append_singleton, nodeIds_call, ih, List.filterMap_append, List.map_append]
    cases hnode : c.node? <;> simp [hnode]

theorem mem_edges_ofCalls {e : Edge} : e ∈ (ofCalls kind styles direction calls).edges ↔
    ∃ link ∈ calls.filterMap Call.link?, e = link.drawn := by
  induction calls using List.reverseRecOn with
  | nil => simp [ofCalls]
  | append_singleton calls c ih =>
    rw [ofCalls_append_singleton, mem_edges_call, ih, List.filterMap_append]
    cases hlink : c.link? <;> simp [hlink, or_and_right, exists_or]

/-- What is taken when the diagram is written are the identifiers of all calls. -/
theorem mem_takenIds_ofCalls {id : String} :
    id ∈ (ofCalls kind styles direction calls).takenIds ↔ id ∈ usedIds calls := by
  rw [takenIds, usedIds, List.mem_append, List.mem_append, nodeIds_ofCalls]
  refine or_congr Iff.rfl ?_
  simp only [List.mem_flatMap, mem_edges_ofCalls]
  constructor
  · rintro ⟨e, ⟨link, hlink, rfl⟩, hid⟩
    exact ⟨link, hlink, hid⟩
  · rintro ⟨link, hlink, hid⟩
    exact ⟨link.drawn, ⟨link, hlink, rfl⟩, hid⟩

/-! ## Reading the identifiers of groups -/

/-- The identifiers on the lines of groups. -/
def groupIdsOf (lines : List (List Char)) : List String :=
  (lines.filter isGroupLine).map fun line => String.ofList (labelledParts (afterWord line)).1

theorem groupIdsOf_of_forall {lines : List (List Char)}
    (h : ∀ line ∈ lines, isGroupLine line = false) : groupIdsOf lines = [] := by
  rw [groupIdsOf, List.filter_eq_nil_iff.mpr fun line hline => by simp [h line hline]]
  rfl

/-- With one identifier for each of its groups, the lines of a body show these. -/
theorem groupIdsOf_bodyLines {events : List Event} {groups : List String}
    (hnodes : ∀ id ∈ events.filterMap declaredId?, IsNodeId id.toList)
    (hgroups : ∀ id ∈ groups, '[' ∉ id.toList)
    (hlength : groups.length = (events.filterMap openedId?).length) (depth : Nat) :
    groupIdsOf ((bodyLines depth groups events).map String.toList) = groups := by
  have hskip {line : List Char} (lines : List (List Char)) (hline : isGroupLine line = false) :
      groupIdsOf (line :: lines) = groupIdsOf lines := by
    rw [groupIdsOf, List.filter_cons_of_neg (by simp [hline])]
    rfl
  induction events generalizing depth groups with
  | nil => exact (List.length_eq_zero_iff.mp hlength).symm
  | cons e events ih =>
    cases e with
    | opened id title =>
      cases groups with
      | nil => cases hlength
      | cons group groups =>
        obtain ⟨hgroup, hgroups⟩ := List.forall_mem_cons.mp hgroups
        rw [bodyLines, List.map_cons, toList_groupLine, groupIdsOf,
          List.filter_cons_of_pos (isGroupLine_wordLine _ _), List.map_cons,
          afterWord_wordLine _ (by decide) (by decide), List.head?_cons, Option.getD_some,
          labelledParts_append hgroup, String.ofList_toList]
        exact congrArg (group :: ·) (ih hnodes hgroups (Nat.succ.inj hlength) _)
    | closed =>
      rw [bodyLines, List.map_cons,
        hskip _ (IsBody.isGroupLine_of_isEndLine (isEndLine_endLine _))]
      exact ih hnodes hgroups hlength _
    | declared id label style =>
      have hid : IsNodeId id.toList := hnodes id List.mem_cons_self
      have hrest := fun other (hother : other ∈ events.filterMap declaredId?) =>
        hnodes other (List.mem_cons_of_mem _ hother)
      rw [bodyLines, List.map_append, List.map_cons, toList_nodeLine, List.cons_append,
        hskip _ (IsBody.isGroupLine_nodeLine depth hid _)]
      cases style with
      | none => exact ih hrest hgroups hlength _
      | some name =>
        rw [Option.toList_some, List.map_singleton, List.map_singleton, toList_classLine,
          List.singleton_append, hskip _ (IsBody.isGroupLine_classLine _ _ _)]
        exact ih hrest hgroups hlength _

/-- The header begins with the kind, whatever direction is given behind it. -/
theorem isGroupLine_header : isGroupLine (kind.name ++ " " ++ direction).toList = false := by
  have hplain : kind.name.toList ≠ [] ∧ ' ' ∉ kind.name.toList ∧
      kind.name.toList ≠ "subgraph".toList := by
    cases kind <;> decide
  have hheader : (kind.name ++ " " ++ direction).toList =
      wordLine 0 kind.name.toList direction.toList := by
    simp only [String.toList_append, List.append_assoc]
    rfl
  rw [isGroupLine, hheader, firstWord_wordLine _ hplain.1 hplain.2.1]
  exact beq_eq_false_iff_ne.mpr hplain.2.2

theorem isGroupLine_of_isBodyLine {line : List Char} (h : isBodyLine line = false) :
    isGroupLine line = false := by
  simp only [isBodyLine, Bool.or_eq_false_iff] at h
  exact h.1.1.1

/-- Of everything that is drawn, the lines show the identifiers of the groups. -/
theorem groupIdsOf_lines_ofCalls
    (hgroups : ∀ id ∈ (ofCalls kind styles direction calls).groupIds, '[' ∉ id.toList) :
    groupIdsOf ((ofCalls kind styles direction calls).lines.map String.toList) =
      (ofCalls kind styles direction calls).groupIds := by
  have happend (front back : List (List Char)) :
      groupIdsOf (front ++ back) = groupIdsOf front ++ groupIdsOf back := by
    rw [groupIdsOf, List.filter_append, List.map_append]
    rfl
  have hnodes : ∀ id ∈ (ofCalls kind styles direction calls).nodeIds, IsNodeId id.toList := by
    rw [nodeIds_ofCalls]
    exact List.forall_mem_map.mpr fun name _ => isNodeId_identifier name
  have hedges : ∀ line ∈ (ofCalls kind styles direction calls).edges.map Edge.line,
      isGroupLine line.toList = false := by
    refine List.forall_mem_map.mpr fun e he => ?_
    obtain ⟨link, -, rfl⟩ := (mem_edges_ofCalls kind styles direction calls).mp he
    exact isGroupLine_of_isBodyLine (isOther_edgeLine (Link.isSound_drawn link)).1
  have hstyles : ∀ line ∈ (ofCalls kind styles direction calls).styleLines,
      isGroupLine line.toList = false := by
    intro line hline
    rcases mem_styleLines hline with rfl | ⟨style, rfl⟩
    · decide
    · exact isGroupLine_of_isBodyLine (isBodyLine_of_isStyleLine (isStyleLine_styleLine style))
  rw [lines, List.map_append, List.map_append, List.map_cons, List.cons_append, List.cons_append,
    ← List.singleton_append, happend, happend, happend,
    groupIdsOf_of_forall (List.forall_mem_map.mpr hedges),
    groupIdsOf_of_forall (List.forall_mem_map.mpr hstyles),
    groupIdsOf_of_forall (List.forall_mem_singleton.mpr (isGroupLine_header _ _)),
    groupIdsOf_bodyLines hnodes hgroups]
  · simp
  · exact length_freshIds _ _

/-- Whatever calls draw a diagram, in any order and with any texts, the identifiers that its groups
are written under are as they should be: all different, and different from those of the nodes that
any of the calls declares or connects. -/
theorem isNaming_ofCalls :
    groupIdsOf ((ofCalls kind styles direction calls).lines.map String.toList) =
        (ofCalls kind styles direction calls).groupIds ∧
      IsNaming (groupNames calls) (usedIds calls)
        (ofCalls kind styles direction calls).groupIds := by
  have hnaming : IsNaming (groupNames calls) (ofCalls kind styles direction calls).takenIds
      (ofCalls kind styles direction calls).groupIds :=
    isNaming_groupIds (wantedGroupIds_ofCalls kind styles direction calls)
  refine ⟨groupIdsOf_lines_ofCalls kind styles direction calls fun id hid => ?_, ?_⟩
  · exact (hnaming.isNodeId id hid).bracket_not_mem
  · exact hnaming.congr fun id => mem_takenIds_ofCalls kind styles direction calls

/-- The second of two groups of one name makes way for the first one, and for a node that is named
by an edge only. -/
example : (ofCalls .flowchart [] "TD" [.openGroup "db" "", .closeGroup, .openGroup "db" "",
    .closeGroup, .edge { source := "db_group", target := "web" }]).groupIds =
    ["db", "db_group2"] := by decide +kernel

end Diagram

end Schematic
