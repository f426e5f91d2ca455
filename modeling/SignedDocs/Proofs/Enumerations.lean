import Mathlib.Data.List.Basic
import SignedDocs.FieldView
import SignedDocs.Proofs.MarkedParts

/-!
Enumerations of names, cut at their backticks.

* `segments`: the names of an enumeration, each with what stands before it. An enumeration is the
  text of its segments (`append_enumeration`).
* `Listed`: pieces that are names by turns with what separates them.
* `cut_enumeration`: an enumeration is cut into its segments, also if it stands between other texts.
* `marked_linkedClause`: the names of the field and of the linked reference are found again in the
  clause on it.
* `enumeration_listed`: whatever the names are, if no backtick is in them, they are found again
  between the backticks, so that a clause on exclusive fields tells which fields it is about.
-/

namespace SignedDocs

/-! ## Separators -/

/-- What separates the name at `i` of an enumeration from the one before. -/
def separator (count i : Nat) : String :=
  if count = 2 then " and " else if i + 1 = count then ", and " else ", "

/-- What stands before the name at `i`, if `opening` stands before the first one. -/
def lead (opening : String) (count i : Nat) : String :=
  if i = 0 then opening else separator count i

/-- The names of an enumeration, each with what stands before it. -/
def segments (opening : String) (names : List String) : List (String × String) :=
  names.mapIdx fun i name => (lead opening names.length i, name)

/-- The text of a segment. -/
def segmentText (segment : String × String) : String := segment.1 ++ Text.mark '\x60' segment.2

variable {opening closing : String} {names : List String}

theorem segmentText_mk (before name : String) :
    segmentText (before, name) = before ++ backticked name := rfl

theorem length_segments : (segments opening names).length = names.length := List.length_mapIdx

theorem getElem?_segments (i : Nat) : (segments opening names)[i]? =
    names[i]?.map fun name => (lead opening names.length i, name) := List.getElem?_mapIdx

theorem notMem_lead (h : '\x60' ∉ opening.toList) (count i : Nat) :
    '\x60' ∉ (lead opening count i).toList := by
  unfold lead
  split
  case isTrue => exact h
  case isFalse =>
    unfold separator
    split
    · decide
    · split
      · decide
      · decide

theorem lead_last (opening : String) {count i : Nat} (hcount : 2 < count) (hi : i + 1 = count) :
    lead opening count i = ", and " := by
  unfold lead separator
  rw [if_neg (by omega), if_neg (by omega), if_pos hi]

theorem lead_between (opening : String) {count i : Nat} (hpos : 0 < i) (hi : i + 1 < count) :
    lead opening count i = ", " := by
  unfold lead separator
  rw [if_neg (by omega), if_neg (by omega), if_neg (by omega)]

/-- In a longer enumeration the last name stands behind an "and", those between behind commas. -/
theorem segments_concat (opening first second last : String) (rest : List String) :
    segments opening (first :: second :: rest ++ [last]) =
      (opening, first) :: (second :: rest).map (", ", ·) ++ [(", and ", last)] := by
  have hlength : (first :: second :: rest ++ [last]).length = rest.length + 3 := by simp
  have hlast : lead opening (rest.length + 3) (first :: second :: rest).length = ", and " :=
    lead_last opening (by omega) rfl
  have hbetween : (second :: rest).mapIdx (fun i name =>
      (lead opening (rest.length + 3) (i + 1), name)) = (second :: rest).map (", ", ·) := by
    refine List.ext_getElem (by simp) fun i hi _ => ?_
    rw [List.length_mapIdx, List.length_cons] at hi
    rw [List.getElem_mapIdx, List.getElem_map, lead_between opening (by omega) (by omega)]
  unfold segments
  rw [hlength, List.mapIdx_concat, hlast, List.mapIdx_cons, hbetween]
  rfl

/-! ## Enumerations -/

theorem enumeration_concat (first second last : String) (rest : List String) :
    enumeration (first :: second :: rest ++ [last]) =
      Text.join ", " ((first :: second :: rest).map backticked) ++ ", and " ++
        backticked last := by
  obtain ⟨third, more, hmore⟩ : ∃ third more, rest ++ [last] = third :: more :=
    List.exists_cons_of_ne_nil (List.append_ne_nil_of_right_ne_nil rest (List.cons_ne_nil last []))
  have hlong : enumeration (first :: second :: third :: more) =
      Text.join ", " ((first :: second :: third :: more).map backticked).dropLast ++ ", and " ++
        ((first :: second :: third :: more).map backticked).getLast?.getD "" := rfl
  have hlist : first :: second :: third :: more = first :: second :: rest ++ [last] := by
    rw [← hmore]
    rfl
  rw [hlist, List.map_append, List.map_singleton, List.dropLast_concat,
    List.getLast?_concat] at hlong
  exact hlong

/-- An enumeration is the text of its segments. -/
theorem append_enumeration (opening : String) (h : names ≠ []) :
    opening ++ enumeration names = String.join ((segments opening names).map segmentText) := by
  match names, h with
  | [first], _ =>
    show opening ++ backticked first = String.join [opening ++ backticked first]
    rw [String.join_cons, String.join_nil, String.append_empty]
  | [first, second], _ =>
    show opening ++ (backticked first ++ " and " ++ backticked second) =
      String.join [opening ++ backticked first, " and " ++ backticked second]
    simp only [String.join_cons, String.join_nil, String.append_empty, String.append_assoc]
  | first :: second :: third :: more, _ =>
    -- here the last name counts, and there is one between it and the first
    obtain ⟨rest, last, hrest⟩ :=
      (List.eq_nil_or_concat' (third :: more)).resolve_left (List.cons_ne_nil third more)
    rw [hrest, ← List.cons_append, ← List.cons_append, enumeration_concat, segments_concat,
      List.map_cons, Text.join_cons]
    simp only [List.map_cons, List.map_append, List.map_map, List.map_nil, Function.comp_def,
      segmentText_mk, String.join_cons, String.join_append, String.join_nil, List.cons_append,
      String.append_empty, String.append_assoc]

/-- Names without backticks are cut apart from what stands between them. -/
theorem cut_enumeration (h : ∀ name ∈ names, '\x60' ∉ name.toList) (hne : names ≠ [])
    (hopening : '\x60' ∉ opening.toList) (hclosing : '\x60' ∉ closing.toList) :
    Text.cut '\x60' (opening ++ enumeration names ++ closing) =
      Text.turns (segments opening names) closing := by
  have hsegments : ∀ p ∈ segments opening names,
      '\x60' ∉ p.1.toList ∧ '\x60' ∉ p.2.toList := by
    intro p hp
    obtain ⟨i, hi, rfl⟩ := List.mem_mapIdx.mp hp
    exact ⟨notMem_lead hopening _ i, h _ (List.getElem_mem hi)⟩
  rw [append_enumeration opening hne]
  exact Text.cut_marked hsegments hclosing

/-! ## What an enumeration tells -/

/-- Pieces that are names by turns with what separates them, between two empty pieces. -/
structure Listed (names pieces : List String) : Prop where
  length : pieces.length = 2 * names.length + 1
  item : ∀ i, pieces[2 * i + 1]? = names[i]?
  between : ∀ i, 0 < i → i < names.length → pieces[2 * i]? = some (separator names.length i)
  first : pieces.head? = some ""
  last : pieces.getLast? = some ""

/-- In whatever texts an enumeration stands, its names are the pieces at odd positions. -/
theorem getElem?_cut_enumeration (h : ∀ name ∈ names, '\x60' ∉ name.toList) (hne : names ≠ [])
    (hopening : '\x60' ∉ opening.toList) (hclosing : '\x60' ∉ closing.toList) (i : Nat) :
    (Text.cut '\x60' (opening ++ enumeration names ++ closing))[2 * i + 1]? = names[i]? := by
  rw [cut_enumeration h hne hopening hclosing, Text.getElem?_turns_odd, getElem?_segments,
    Option.map_map]
  exact Option.map_id'

theorem listed_cut_enumeration (h : ∀ name ∈ names, '\x60' ∉ name.toList) :
    Listed names (Text.cut '\x60' (enumeration names)) := by
  by_cases hne : names = []
  · subst hne
    exact ⟨rfl, fun i => rfl, fun i _ hi => absurd hi (Nat.not_lt_zero i), rfl, rfl⟩
  · have hnone : '\x60' ∉ "".toList := List.not_mem_nil
    have hcut := cut_enumeration h hne hnone hnone
    have hitem := getElem?_cut_enumeration h hne hnone hnone
    simp only [String.empty_append, String.append_empty] at hcut hitem
    have hlead (i : Nat) (hi : i < names.length) :
        (Text.cut '\x60' (enumeration names))[2 * i]? = some (lead "" names.length i) := by
      rw [hcut, Text.getElem?_turns_even (by rwa [length_segments]), getElem?_segments,
        List.getElem?_eq_getElem hi]
      rfl
    refine ⟨?_, hitem, ?_, ?_, ?_⟩
    · rw [hcut, Text.length_turns, length_segments]
    · intro i hpos hi
      rw [hlead i hi, lead, if_neg (Nat.ne_of_gt hpos)]
    · rw [List.head?_eq_getElem?]
      exact hlead 0 (List.length_pos_iff.mpr hne)
    · rw [hcut, Text.getLast?_turns]

/-- In a clause on exclusive fields there are no backticks but those of the enumeration. -/
theorem exists_exclusiveClause : ∃ opening closing : String,
    '\x60' ∉ opening.toList ∧ '\x60' ∉ closing.toList ∧
      ∀ names, names ≠ [] →
        exclusiveClause names = some (opening ++ enumeration names ++ closing) := by
  refine ⟨"* MUST NOT be present in any document that also contains metadata ", ".", by decide,
    by decide, fun names hne => ?_⟩
  exact if_neg (by simpa using hne)

theorem exclusiveClause_inj {others : List String} (h : ∀ name ∈ names, '\x60' ∉ name.toList)
    (hothers : ∀ name ∈ others, '\x60' ∉ name.toList)
    (heq : exclusiveClause others = exclusiveClause names) : others = names := by
  obtain ⟨opening, closing, hopening, hclosing, hclause⟩ := exists_exclusiveClause
  by_cases hnone : names = []
  · by_contra hne
    rw [hnone] at heq hne
    rw [hclause others hne] at heq
    cases heq
  · have hsome : others ≠ [] := by
      rintro rfl
      rw [hclause names hnone] at heq
      cases heq
    rw [hclause names hnone, hclause others hsome, Option.some.injEq] at heq
    -- both lists are read off the same pieces
    refine List.ext_getElem? fun i => ?_
    rw [← getElem?_cut_enumeration h hnone hopening hclosing i, ← heq]
    exact (getElem?_cut_enumeration hothers hsome hopening hclosing i).symm

/-- The clause on a linked reference shows it, and the field that has to match. -/
theorem marked_linkedClause {field linked : String} (hfield : '\x60' ∉ field.toList)
    (hlinked : '\x60' ∉ linked.toList) :
    Text.marked '\x60' (linkedClause field linked) = [linked, field, field] := by
  have hmark (name : String) : backticked name = Text.mark '\x60' name := by
    unfold backticked Text.mark
    rfl
  unfold linkedClause
  simp only [hmark, String.append_assoc]
  rw [Text.marked_piece (by decide) hlinked, Text.marked_piece (by decide) hfield,
    Text.marked_piece (by decide) hfield, Text.marked_of_notMem (by decide)]

/-- Clauses on linked references are the same only for the same field and the same reference. -/
theorem linkedClause_inj {field other linked another : String} (hfield : '\x60' ∉ field.toList)
    (hother : '\x60' ∉ other.toList) (hlinked : '\x60' ∉ linked.toList)
    (hanother : '\x60' ∉ another.toList)
    (h : linkedClause field linked = linkedClause other another) :
    field = other ∧ linked = another := by
  have hshown := congrArg (Text.marked '\x60') h
  rw [marked_linkedClause hfield hlinked, marked_linkedClause hother hanother] at hshown
  cases hshown
  exact ⟨rfl, rfl⟩

/-- A name with backticks in it can look like two names. -/
example : exclusiveClause ["a\x60 and \x60b"] = exclusiveClause ["a", "b"] := by
  decide

/-- Names without backticks are found again in their enumeration, whatever else is in them: cut at
its backticks, it has them all, in their order, as the pieces at odd positions, between them the
separators of an enumeration of so many names, and nothing before and behind. So a clause on
exclusive fields is about one list of such names only. -/
theorem enumeration_listed (h : ∀ name ∈ names, '\x60' ∉ name.toList) :
    Listed names (Text.cut '\x60' (enumeration names)) ∧
    ∀ others : List String, (∀ name ∈ others, '\x60' ∉ name.toList) →
      exclusiveClause others = exclusiveClause names → others = names :=
  ⟨listed_cut_enumeration h, fun _ hothers => exclusiveClause_inj h hothers⟩

/-- Names that look like separators. -/
theorem separatorNames_listed :
    (∀ name ∈ [" and ", ", ", "", "a, and b"], '\x60' ∉ name.toList) ∧
    Listed [" and ", ", ", "", "a, and b"]
      ["", " and ", ", ", ", ", ", ", "", ", and ", "a, and b", ""] ∧
    exclusiveClause [" and ", ", and ", "", "a, and b"] ≠
      exclusiveClause [" and ", ", ", "", "a, and b"] := by
  have h : ∀ name ∈ [" and ", ", ", "", "a, and b"], '\x60' ∉ name.toList := by decide
  obtain ⟨hlisted, hclause⟩ := enumeration_listed h
  refine ⟨h, hlisted, fun heq => ?_⟩
  exact absurd (hclause _ (by decide) heq) (by decide)

end SignedDocs
