import SignedDocs.FieldView
import SignedDocs.Proofs.Blanks

/-!
The narrative of a field: its declared rules, then its clauses.

* `framed_of_mem_clauses`: clauses are framed texts, whatever names stand in them, and so are
  clauses on lines of their own.
* `Composed`: declared rules, then clauses on lines of their own.
* `narrative_composed`: a narrative is composed of the declared rules and the clauses of its field.
-/

namespace SignedDocs

/-! ## Composed texts -/

/-- Rules with clauses behind them: each clause stands complete on a line of its own, in their order
and at the end; before them stand the rules up to blanks at their ends, and nothing if the rules are
blank. If a clause follows, only the blanks at the beginning of the rules are left out. -/
structure Composed (rules : String) (clauses : List String) (text : String) : Prop where
  ending : ∃ before, text = before ++ Text.join "\n" clauses
  blank : Text.trim rules = "" → text = Text.join "\n" clauses
  shown : Text.trim rules ≠ "" → ∃ opening, text = Text.join "\n" (opening :: clauses) ∧
    Text.trim opening = Text.trim rules ∧
    (clauses ≠ [] → opening.toList = Text.trimStartChars rules.toList)
  trimmed : Text.trim text = text

theorem join_newlines {clauses : List String} (h : clauses ≠ []) :
    String.join (clauses.map fun c => "\n" ++ c) = "\n" ++ Text.join "\n" clauses := by
  obtain ⟨c, rest, rfl⟩ := List.exists_cons_of_ne_nil h
  rw [Text.join_cons, List.map_cons, String.join_cons, String.append_assoc]

/-- Rules with framed clauses appended to them are composed once they are trimmed as a whole. -/
theorem composed_trim (rules : String) {clauses : List String}
    (h : ∀ c ∈ clauses, Text.Framed c) :
    Composed rules clauses (Text.trim (rules ++ String.join (clauses.map fun c => "\n" ++ c))) := by
  by_cases hclauses : clauses = []
  · subst hclauses
    rw [List.map_nil, String.join_nil, String.append_empty]
    refine ⟨⟨Text.trim rules, ?_⟩, id, ?_, Text.trim_trim rules⟩
    · exact String.append_empty.symm
    · exact fun _ => ⟨Text.trim rules, rfl, Text.trim_trim rules, fun hne => absurd rfl hne⟩
  · have hframed : Text.Framed (Text.join "\n" clauses) := Text.framed_join hclauses h
    have htext : Text.trim (rules ++ String.join (clauses.map fun c => "\n" ++ c)) =
        if Text.trim rules = "" then Text.join "\n" clauses
        else String.ofList (Text.trimStartChars rules.toList) ++ "\n" ++
          Text.join "\n" clauses := by
      rw [join_newlines hclauses, ← String.append_assoc, Text.trim_append_framed hframed]
    refine ⟨?_, ?_, ?_, Text.trim_trim _⟩
    · rw [htext]
      by_cases hrules : Text.trim rules = ""
      · rw [if_pos hrules]
        exact ⟨"", String.empty_append.symm⟩
      · rw [if_neg hrules]
        exact ⟨_, rfl⟩
    · intro hrules
      rw [htext, if_pos hrules]
    · intro hrules
      refine ⟨String.ofList (Text.trimStartChars rules.toList), ?_, ?_, ?_⟩
      · rw [htext, if_neg hrules]
        unfold Text.join
        rw [String.intercalate_cons_of_ne_nil hclauses]
      · rw [← String.toList_inj, Text.toList_trim, Text.toList_trim, String.toList_ofList]
        unfold Text.trimChars
        rw [Text.trimStartChars_trimStartChars]
      · exact fun _ => String.toList_ofList

/-! ## Clauses -/

theorem framed_of_exclusiveClause {members : List String} {c : String}
    (h : exclusiveClause members = some c) : Text.Framed c := by
  unfold exclusiveClause at h
  split at h
  · cases h
  · cases h
    have hopens : Text.Opens "* MUST NOT be present in any document that also contains metadata " :=
      ⟨'*', _, rfl, rfl⟩
    have hcloses : Text.Closes "." := ⟨[], '.', rfl, rfl⟩
    exact ⟨(hopens.append _).append _, hcloses.append _⟩

theorem framed_linkedClause (field linked : String) : Text.Framed (linkedClause field linked) := by
  have hopens : Text.Opens "* The Document referenced by " := ⟨'*', _, rfl, rfl⟩
  have hcloses : Text.Closes " value." := ⟨[' ', 'v', 'a', 'l', 'u', 'e'], '.', rfl, rfl⟩
  unfold linkedClause
  refine ⟨?_, hcloses.append _⟩
  simp only [String.append_assoc]
  exact hopens.append _

/-- Clauses are framed, whatever the names in them. -/
theorem framed_of_mem_clauses {f : Scoped MetadataField} {c : String} (hc : c ∈ clauses f) :
    Text.Framed c := by
  unfold clauses at hc
  rcases List.mem_append.mp hc with hexclusive | hlinked
  · exact framed_of_exclusiveClause (Option.mem_toList.mp hexclusive)
  · obtain ⟨linked, -, rfl⟩ := List.mem_map.mp hlinked
    exact framed_linkedClause f.name linked

/-- The narrative of any field, whatever its rules and the names in its clauses: the rules, then the
clause on exclusive fields if there are any, then one for each linked reference in their order. -/
theorem narrative_composed (f : Scoped MetadataField) :
    Composed (f.record.validation.getD "") (clauses f) (narrative f) ∧
    (f.record.exclusive = [] → clauses f = f.record.linkedRefs.map (linkedClause f.name)) ∧
    (f.record.exclusive ≠ [] → ∃ c, exclusiveClause f.record.exclusive = some c ∧
      clauses f = c :: f.record.linkedRefs.map (linkedClause f.name)) := by
  refine ⟨composed_trim _ fun _ => framed_of_mem_clauses, ?_, ?_⟩
  · intro hnone
    unfold clauses
    rw [hnone]
    rfl
  · intro hsome
    obtain ⟨m, members, hmembers⟩ := List.exists_cons_of_ne_nil hsome
    unfold clauses
    rw [hmembers]
    exact ⟨_, rfl, rfl⟩

end SignedDocs
