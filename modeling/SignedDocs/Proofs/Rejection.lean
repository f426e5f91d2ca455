import SignedDocs.Specification

/-!
Rejection: when a specification is accepted, and what a rejection reports.

* `Report.Covers`: an error stands at a place or around it, judged by paths.
* `errors_report`: the errors of the shape, then those of the checks that are not
  covered; covering never hides all of them.
* `ofJson_outcome`: acceptance, the agreement of both ways to load, and the errors
  of a rejection.
-/

namespace SignedDocs

/-! ## Covered issues -/

/-- The path of the issue is `path` or goes on after a point. -/
def Issue.IsBeneath (i : Issue) (path : String) : Prop :=
  i.path = path ∨ ∃ rest, i.path = path ++ "." ++ rest

theorem Issue.isWithin_iff {i : Issue} {path : String} :
    i.isWithin path = true ↔ i.IsBeneath path := by
  unfold isWithin IsBeneath Text.startsWith
  rw [Bool.or_eq_true, beq_iff_eq, List.isPrefixOf_iff_prefix]
  refine or_congr Iff.rfl ?_
  constructor
  · rintro ⟨rest, hr⟩
    refine ⟨String.ofList rest, ?_⟩
    rw [← String.toList_inj, ← hr]
    simp only [String.toList_append, String.toList_ofList]
  · rintro ⟨rest, hr⟩
    refine ⟨rest.toList, ?_⟩
    rw [hr]
    simp only [String.toList_append]

instance (i : Issue) (path : String) : Decidable (i.IsBeneath path) :=
  decidable_of_iff _ Issue.isWithin_iff

namespace Report

/-- An error of the report stands at the place of the issue or around it; an error
of the whole does not count. -/
def Covers (r : Report) (i : Issue) : Prop := ∃ j ∈ r.errors, j.path ≠ "" ∧ i.IsBeneath j.path

theorem isFresh_iff {r : Report} {i : Issue} : r.isFresh i = true ↔ ¬r.Covers i := by
  have hany : r.reportedPaths.any i.isWithin = true ↔ r.Covers i := by
    unfold reportedPaths Covers
    simp only [List.any_eq_true, List.mem_filter, List.mem_map, Issue.isWithin_iff]
    constructor
    · rintro ⟨p, ⟨⟨j, hj, rfl⟩, hne⟩, hb⟩
      exact ⟨j, hj, by simpa using hne, hb⟩
    · rintro ⟨j, hj, hne, hb⟩
      exact ⟨j.path, ⟨⟨j, hj, rfl⟩, by simpa using hne⟩, hb⟩
  unfold isFresh
  rw [← hany, Bool.not_eq_true', Bool.not_eq_true]

instance (r : Report) (i : Issue) : Decidable (r.Covers i) :=
  inferInstanceAs (Decidable (∃ j ∈ r.errors, j.path ≠ "" ∧ i.IsBeneath j.path))

theorem filter_isFresh (r : Report) (is : List Issue) :
    is.filter r.isFresh = is.filter fun i => ¬r.Covers i := by
  refine List.filter_congr fun i _ => ?_
  rw [Bool.eq_iff_iff, isFresh_iff, decide_eq_true_eq]

end Report

/-! ## The report of reading -/

/-- Reading only reports errors. -/
theorem Draft.report_read (root : Json) :
    (Draft.read root).2 = .ofErrors (Draft.read root).2.errors := by
  unfold Draft.read
  cases root.fields? <;> rw [Report.errors_ofErrors]

theorem Draft.inStep_read (root : Json) : (Draft.read root).2.InStep := by
  rw [Draft.report_read]
  exact Report.inStep_ofErrors _

theorem Draft.errors_read_ne_nil {root : Json} (h : (Draft.read root).1 = none) :
    (Draft.read root).2.errors ≠ [] := by
  unfold Draft.read at *
  cases hf : root.fields? with
  | none => simp
  | some t => simp [hf] at h

namespace Specification

variable [JsonSchema.Engine] {s : Settings} {d : Draft} {structural : Report}

/-! ## Building -/

theorem errors_report : (report s structural d).errors =
    structural.errors ++ (d.check s).errors.filter fun i => ¬structural.Covers i := by
  unfold report
  rw [Report.errors_mergeUnreported, Report.filter_isFresh]

/-- An error covers others only if it is itself there. -/
theorem errors_report_eq_nil_iff :
    (report s structural d).errors = [] ↔ structural.errors = [] ∧ (d.check s).errors = [] := by
  rw [errors_report, List.append_eq_nil_iff]
  refine and_congr_right fun hs => ?_
  have hfree : ∀ i ∈ (d.check s).errors, decide (¬structural.Covers i) = true := by
    intro i _
    rw [decide_eq_true_eq]
    rintro ⟨j, hj, -⟩
    rw [hs] at hj
    cases hj
  rw [List.filter_eq_self.mpr hfree]

theorem build_ok_iff (h : structural.InStep) :
    (∃ spec, build s structural d = .ok spec) ↔
      structural.errors = [] ∧ (d.check s).errors = [] := by
  have hstep : (report s structural d).InStep := h.mergeUnreported _
  rw [← errors_report_eq_nil_iff, ← hstep.isValid_iff]
  unfold build
  by_cases hv : (report s structural d).isValid = true <;> simp [hv]

theorem build_error (h : structural.InStep) {failure : Failure}
    (hf : build s structural d = .error failure) :
    failure = .rejected (report s structural d) ∧ (report s structural d).errors ≠ [] := by
  have hstep : (report s structural d).InStep := h.mergeUnreported _
  unfold build at hf
  by_cases hv : (report s structural d).isValid = true
  · simp [hv] at hf
  · rw [hstep.isValid_iff] at hv
    refine ⟨?_, hv⟩
    simpa [hstep.isValid_iff, hv] using hf.symm

/-! ## Loading -/

theorem ofJson_eq (s : Settings) (root : Json) :
    ofJson s root = match (Draft.read root).1 with
      | some d => build s (Draft.read root).2 d
      | none => .error (.rejected (Draft.read root).2) := by
  unfold ofJson
  rcases Draft.read root with ⟨_ | d, structural⟩ <;> rfl

theorem ofJson_ok_iff {root : Json} :
    (∃ spec, ofJson s root = .ok spec) ↔
      (Draft.read root).2.errors = [] ∧
        ∃ d, (Draft.read root).1 = some d ∧ (d.check s).errors = [] := by
  rw [ofJson_eq]
  cases (Draft.read root).1 with
  | none => simp
  | some d =>
    simp only [Option.some.injEq, exists_eq_left']
    exact build_ok_iff (Draft.inStep_read root)

/-- What was read without errors can be checked later. -/
theorem ofJson_eq_bind {root : Json} (h : (Draft.read root).2.errors = []) :
    ofJson s root = readDraft root >>= ofDraft s := by
  have hreport : (Draft.read root).2 = .empty := by
    rw [Draft.report_read, h]
    rfl
  unfold ofJson readDraft
  generalize Draft.read root = result at hreport
  obtain ⟨draft, structural⟩ := result
  cases hreport
  cases draft <;> rfl

theorem ofJson_error {root : Json} {failure : Failure} (hf : ofJson s root = .error failure) :
    ∃ r, failure = .rejected r ∧ r.errors ≠ [] ∧
      r.errors = (Draft.read root).2.errors ++
        ((Draft.read root).1.elim [] fun d => (d.check s).errors).filter
          fun i => ¬(Draft.read root).2.Covers i := by
  rw [ofJson_eq] at hf
  cases hd : (Draft.read root).1 with
  | none =>
    rw [hd] at hf
    cases hf
    exact ⟨_, rfl, Draft.errors_read_ne_nil hd, (List.append_nil _).symm⟩
  | some d =>
    rw [hd] at hf
    obtain ⟨rfl, hne⟩ := build_error (Draft.inStep_read root) hf
    exact ⟨_, rfl, hne, errors_report⟩

/-- An error of the checks is reported unless an error of the shape covers it. -/
theorem mem_rejection_iff {root : Json} (h : (Draft.read root).1 = some d) {i : Issue}
    (hi : i ∈ (d.check s).errors) :
    (∃ r, ofJson s root = .error (.rejected r) ∧ i ∈ r.errors) ↔
      i ∈ (Draft.read root).2.errors ∨ ¬(Draft.read root).2.Covers i := by
  have hmem : i ∈ (report s (Draft.read root).2 d).errors ↔
      i ∈ (Draft.read root).2.errors ∨ ¬(Draft.read root).2.Covers i := by
    rw [errors_report, List.mem_append, List.mem_filter, decide_eq_true_eq]
    exact or_congr_right (and_iff_right hi)
  have hbuild : ofJson s root = build s (Draft.read root).2 d := by rw [ofJson_eq, h]
  rw [← hmem, hbuild]
  constructor
  · rintro ⟨r, hr, hir⟩
    cases (build_error (Draft.inStep_read root) hr).1
    exact hir
  · intro hir
    cases hb : build s (Draft.read root).2 d with
    | ok spec =>
      have hclean := (build_ok_iff (Draft.inStep_read root)).mp ⟨spec, hb⟩
      rw [errors_report_eq_nil_iff.mpr hclean] at hir
      cases hir
    | error failure =>
      obtain ⟨rfl, -⟩ := build_error (Draft.inStep_read root) hb
      exact ⟨_, rfl, hir⟩

/-- Loading a value: it is accepted exactly if neither reading nor checking finds an
error; if reading finds none, it makes no difference to check later; and a rejection
lists the errors of reading, then those of checking that they do not cover. -/
theorem ofJson_outcome (s : Settings) (root : Json) :
    ((∃ spec, ofJson s root = .ok spec) ↔
      (Draft.read root).2.errors = [] ∧
        ∃ d, (Draft.read root).1 = some d ∧ (d.check s).errors = []) ∧
    ((Draft.read root).2.errors = [] → ofJson s root = readDraft root >>= ofDraft s) ∧
    ∀ failure, ofJson s root = .error failure →
      ∃ r, failure = .rejected r ∧ r.errors ≠ [] ∧
        r.errors = (Draft.read root).2.errors ++
          ((Draft.read root).1.elim [] fun d => (d.check s).errors).filter
            fun i => ¬(Draft.read root).2.Covers i :=
  ⟨ofJson_ok_iff, ofJson_eq_bind, fun _ => ofJson_error⟩

end Specification

end SignedDocs
