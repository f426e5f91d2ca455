import Mathlib.Logic.Relation
import SignedDocs.Proofs.Rejection

/-!
Reports by the calls that made them.

* `Report.Reached`: a new report after some calls; what is merged came about in the same way.
* `Step.extends`, `extends_of_steps`: a call adds at the end and loses nothing, and so do calls
  one after the other.
* `Reached.inStep`: the verdict goes with the errors, whatever the calls were.
* `Reached.calls_outcome`: both, and what exactly is added by `mergeUnreported`.
* `Draft.reached_check`, `Specification.reached_of_rejected`: the reports of reading, of checking
  and of a rejection come about by such calls.
-/

namespace SignedDocs

namespace Report

/-- What calls make of a new report. -/
inductive Reached : Report → Prop
  | empty : Reached .empty
  | addError {r : Report} (i : Issue) : Reached r → Reached (r.addError i)
  | addWarning {r : Report} (i : Issue) : Reached r → Reached (r.addWarning i)
  | merge {r s : Report} : Reached r → Reached s → Reached (r.merge s)
  | mergeUnreported {r s : Report} : Reached r → Reached s → Reached (r.mergeUnreported s)

/-- One call. -/
inductive Step (r : Report) : Report → Prop
  | addError (i : Issue) : Step r (r.addError i)
  | addWarning (i : Issue) : Step r (r.addWarning i)
  | merge {s : Report} : Reached s → Step r (r.merge s)
  | mergeUnreported {s : Report} : Reached s → Step r (r.mergeUnreported s)

/-- What was there is still there, before everything else. -/
structure Extends (r r' : Report) : Prop where
  errors : r.errors <+: r'.errors
  warnings : r.warnings <+: r'.warnings

variable {r r' s : Report}

/-! ## Calls -/

theorem Extends.refl (r : Report) : r.Extends r := ⟨List.prefix_rfl, List.prefix_rfl⟩

theorem Extends.trans {r'' : Report} (h : r.Extends r') (h' : r'.Extends r'') : r.Extends r'' :=
  ⟨h.errors.trans h'.errors, h.warnings.trans h'.warnings⟩

theorem Step.extends (h : Step r r') : r.Extends r' := by
  cases h with
  | addError i => exact ⟨List.prefix_append _ _, List.prefix_rfl⟩
  | addWarning i => exact ⟨List.prefix_rfl, List.prefix_append _ _⟩
  | merge hs => exact ⟨List.prefix_append _ _, List.prefix_append _ _⟩
  | mergeUnreported hs =>
    constructor
    · rw [errors_mergeUnreported]
      exact List.prefix_append _ _
    · rw [warnings_mergeUnreported]
      exact List.prefix_append _ _

theorem extends_of_steps (h : Relation.ReflTransGen Step r r') : r.Extends r' := by
  induction h with
  | refl => exact .refl r
  | tail _ hstep ih => exact ih.trans hstep.extends

theorem Reached.of_step (h : Reached r) (hstep : Step r r') : Reached r' := by
  cases hstep with
  | addError i => exact h.addError i
  | addWarning i => exact h.addWarning i
  | merge hs => exact h.merge hs
  | mergeUnreported hs => exact h.mergeUnreported hs

theorem Reached.of_steps (h : Reached r) (hsteps : Relation.ReflTransGen Step r r') :
    Reached r' := by
  induction hsteps with
  | refl => exact h
  | tail _ hstep ih => exact ih.of_step hstep

/-- Reports are reached by calls one after the other, and only in this way. -/
theorem reached_iff_steps : Reached r ↔ Relation.ReflTransGen Step .empty r := by
  constructor
  · intro h
    induction h with
    | empty => exact .refl
    | addError i _ ih => exact ih.tail (.addError i)
    | addWarning i _ ih => exact ih.tail (.addWarning i)
    | merge _ hs ih _ => exact ih.tail (.merge hs)
    | mergeUnreported _ hs ih _ => exact ih.tail (.mergeUnreported hs)
  · exact Reached.empty.of_steps

/-! ## The verdict -/

theorem Reached.inStep (h : Reached r) : r.InStep := by
  induction h with
  | empty => exact inStep_empty
  | addError i _ _ => exact InStep.addError i
  | addWarning i _ ih => exact ih
  | merge _ _ ihr ihs => exact ihr.merge ihs
  | mergeUnreported _ _ ih _ => exact ih.mergeUnreported _

/-- Whatever calls made a report, it is valid exactly if it has no errors. Further calls keep its
errors and warnings at the start, and merging what is not yet reported adds exactly those that no
error of the report before the call covers, in their order. -/
theorem Reached.calls_outcome (h : Reached r) :
    (r.isValid = true ↔ r.errors = []) ∧
    (∀ r', Relation.ReflTransGen Step r r' → Reached r' ∧ r.Extends r') ∧
    ∀ s, (r.mergeUnreported s).errors = r.errors ++ s.errors.filter (fun i => ¬r.Covers i) ∧
      (r.mergeUnreported s).warnings =
        r.warnings ++ s.warnings.filter (fun i => ¬r.Covers i) := by
  refine ⟨h.inStep.isValid_iff, fun r' hsteps => ⟨h.of_steps hsteps, extends_of_steps hsteps⟩, ?_⟩
  intro s
  rw [errors_mergeUnreported, warnings_mergeUnreported, filter_isFresh, filter_isFresh]
  exact ⟨rfl, rfl⟩

/-- A section is missing, and something is wrong with the whole. -/
def missingSection : Report :=
  (empty.addError ⟨["copyright"], .missingSection⟩).addError ⟨[], .rootNotObject .null⟩

/-- Errors beneath that section, at a longer name, and at the whole; a warning at the section. -/
def laterFindings : Report :=
  (((empty.addError ⟨["copyright", "versions"], .emptyChangeLog⟩).addError
    ⟨["copyrights"], .unknownField⟩).addError ⟨[], .unknownField⟩).addWarning
    ⟨["copyright"], .missingField⟩

/-- Only what is beneath the section is left out. -/
theorem missingSection_merged : Reached missingSection ∧ missingSection.isValid ≠ true ∧
    missingSection.Extends (missingSection.mergeUnreported laterFindings) ∧
    (missingSection.mergeUnreported laterFindings).errors = missingSection.errors ++
      [⟨["copyrights"], .unknownField⟩, ⟨[], .unknownField⟩] ∧
    (missingSection.mergeUnreported laterFindings).warnings = [] := by
  have hreached : Reached missingSection := (Reached.empty.addError _).addError _
  have hlater : Reached laterFindings :=
    (((Reached.empty.addError _).addError _).addError _).addWarning _
  obtain ⟨hvalid, hsteps, hmerge⟩ := hreached.calls_outcome
  obtain ⟨herrors, hwarnings⟩ := hmerge laterFindings
  refine ⟨hreached, ?_, (hsteps _ (.single (.mergeUnreported hlater))).2, herrors, hwarnings⟩
  rw [Ne, hvalid]
  exact List.cons_ne_nil _ _

/-! ## Many calls -/

theorem Reached.addErrors (h : Reached r) (is : List Issue) : Reached (r.addErrors is) := by
  induction is generalizing r with
  | nil => exact h
  | cons i is ih => exact ih (h.addError i)

theorem Reached.addWarnings (h : Reached r) (is : List Issue) : Reached (r.addWarnings is) := by
  induction is generalizing r with
  | nil => exact h
  | cons i is ih => exact ih (h.addWarning i)

theorem reached_ofErrors (is : List Issue) : Reached (ofErrors is) := Reached.empty.addErrors is

theorem reached_mergeAll {rs : List Report} (h : ∀ r ∈ rs, Reached r) : Reached (mergeAll rs) := by
  suffices ∀ r : Report, Reached r → Reached (rs.foldl merge r) from this empty .empty
  induction rs with
  | nil => exact fun r hr => hr
  | cons s rs ih =>
    intro r hr
    rw [List.forall_mem_cons] at h
    exact ih h.2 (r.merge s) (hr.merge h.1)

end Report

/-! ## Reading and checking -/

/-- What reading reports is made by such calls. -/
theorem Draft.reached_read (root : Json) : (Draft.read root).2.Reached := by
  rw [Draft.report_read]
  exact Report.reached_ofErrors _

section

variable [JsonSchema.Engine]

/-- What the checks report is made by such calls. -/
theorem Draft.reached_check (d : Draft) (s : Settings) : (d.check s).Reached := by
  apply Report.reached_mergeAll
  have hpayloads : ∀ r ∈ if s.checkExamples then [checkPayloads d.docs] else [], r.Reached := by
    intro r hr
    split at hr
    · rw [List.mem_singleton.mp hr]
      exact Report.reached_ofErrors _
    · cases hr
  rw [List.forall_mem_append]
  refine ⟨?_, hpayloads⟩
  simp only [List.forall_mem_cons, List.not_mem_nil, false_implies, implies_true, and_true]
  exact ⟨(Report.reached_ofErrors _).addWarnings _, Report.reached_ofErrors _,
    Report.reached_ofErrors _, Report.Reached.empty.addWarnings _, Report.reached_ofErrors _,
    (Report.reached_ofErrors _).addWarnings _, Report.reached_ofErrors _,
    Report.reached_ofErrors _, Report.reached_ofErrors _, Report.reached_ofErrors _⟩

/-- So is every report with which a specification is rejected. -/
theorem Specification.reached_of_rejected {s : Settings} {root : Json} {r : Report}
    (h : ofJson s root = .error (.rejected r)) : r.Reached := by
  rw [ofJson_eq] at h
  cases hd : (Draft.read root).1 with
  | none =>
    rw [hd] at h
    cases h
    exact Draft.reached_read root
  | some d =>
    rw [hd] at h
    cases (build_error (Draft.inStep_read root) h).1
    exact (Draft.reached_read root).mergeUnreported (d.reached_check s)

end

end SignedDocs
