import SignedDocs.Report.Finding

/-!
Reports: errors and warnings with the places they concern.

* `Report.merge`: one report after the other.
* `Report.mergeUnreported`: only what does not concern a place, or a part of a
  place, that already has an error. Places are compared by their texts.
-/

namespace SignedDocs

/-- A finding at the place that some keys lead to. -/
structure Issue where
  place : List String
  finding : Finding

namespace Issue

/-- The keys of the place with points between them. -/
def path (i : Issue) : String := Text.join "." i.place

def kind (i : Issue) : IssueKind := i.finding.kind

def message (i : Issue) : String := i.finding.message

def render (i : Issue) : String :=
  let head := "[" ++ i.kind.word ++ "] "
  if i.path.isEmpty then head ++ i.message else head ++ i.path ++ ": " ++ i.message

/-- The path of the issue is `path` or goes on after a point. -/
def isWithin (i : Issue) (path : String) : Bool :=
  i.path == path || Text.startsWith i.path (path ++ ".")

end Issue

/-- Errors and warnings, and whether anything was wrong so far; warnings do not count. -/
structure Report where
  isValid : Bool
  errors : List Issue
  warnings : List Issue

namespace Report

def empty : Report := ⟨true, [], []⟩

instance : Inhabited Report := ⟨empty⟩

def addError (r : Report) (i : Issue) : Report :=
  { r with isValid := false, errors := r.errors ++ [i] }

def addWarning (r : Report) (i : Issue) : Report := { r with warnings := r.warnings ++ [i] }

def addErrors (r : Report) (is : List Issue) : Report := is.foldl addError r

def addWarnings (r : Report) (is : List Issue) : Report := is.foldl addWarning r

/-- Errors only. -/
def ofErrors (errors : List Issue) : Report := empty.addErrors errors

def merge (r s : Report) : Report :=
  ⟨r.isValid && s.isValid, r.errors ++ s.errors, r.warnings ++ s.warnings⟩

/-- Paths that have an error; the empty one is not counted. -/
def reportedPaths (r : Report) : List String :=
  (r.errors.map Issue.path).filter fun p => !p.isEmpty

/-- No error concerns the place of the issue or a place around it. -/
def isFresh (r : Report) (i : Issue) : Bool := !r.reportedPaths.any i.isWithin

/-- Adds what concerns places without errors so far. -/
def mergeUnreported (r s : Report) : Report :=
  (r.addErrors (s.errors.filter r.isFresh)).addWarnings (s.warnings.filter r.isFresh)

def errorsOf (r : Report) (kind : IssueKind) : List Issue :=
  r.errors.filter fun i => i.kind == kind

/-- A line for each error. -/
def render (r : Report) : String := String.join (r.errors.map fun i => "  - " ++ i.render ++ "\n")

/-- What is said of a specification with errors. -/
def rejection (r : Report) : String :=
  "Specification rejected with " ++ toString r.errors.length ++ " error(s):\n" ++ r.render

/-- All reports, one after the other. -/
def mergeAll (rs : List Report) : Report := rs.foldl merge empty

/-! ## Errors and the verdict -/

@[simp] theorem errors_addErrors (r : Report) (is : List Issue) :
    (r.addErrors is).errors = r.errors ++ is := by
  induction is generalizing r with
  | nil => simp [addErrors]
  | cons i is ih =>
    show ((r.addError i).addErrors is).errors = _
    rw [ih]
    simp [addError]

@[simp] theorem errors_addWarnings (r : Report) (is : List Issue) :
    (r.addWarnings is).errors = r.errors := by
  induction is generalizing r with
  | nil => rfl
  | cons i is ih => exact ih (r.addWarning i)

@[simp] theorem errors_ofErrors (is : List Issue) : (ofErrors is).errors = is := by
  simp [ofErrors, empty]

@[simp] theorem warnings_addErrors (r : Report) (is : List Issue) :
    (r.addErrors is).warnings = r.warnings := by
  induction is generalizing r with
  | nil => rfl
  | cons i is ih => exact ih (r.addError i)

@[simp] theorem warnings_addWarnings (r : Report) (is : List Issue) :
    (r.addWarnings is).warnings = r.warnings ++ is := by
  induction is generalizing r with
  | nil => simp [addWarnings]
  | cons i is ih =>
    show ((r.addWarning i).addWarnings is).warnings = _
    rw [ih]
    simp [addWarning]

/-- Only what is not yet reported is added. -/
theorem errors_mergeUnreported (r s : Report) :
    (r.mergeUnreported s).errors = r.errors ++ s.errors.filter r.isFresh := by
  simp [mergeUnreported]

theorem warnings_mergeUnreported (r s : Report) :
    (r.mergeUnreported s).warnings = r.warnings ++ s.warnings.filter r.isFresh := by
  simp [mergeUnreported]

theorem errors_mergeAll (rs : List Report) : (mergeAll rs).errors = rs.flatMap errors := by
  suffices ∀ r : Report, (rs.foldl merge r).errors = r.errors ++ rs.flatMap errors by
    simpa [mergeAll, empty] using this empty
  induction rs with
  | nil => simp
  | cons s rs ih =>
    intro r
    rw [List.foldl_cons, ih, List.flatMap_cons, ← List.append_assoc]
    rfl

/-- The verdict goes with the errors. -/
def InStep (r : Report) : Prop := r.isValid = r.errors.isEmpty

theorem inStep_empty : empty.InStep := rfl

theorem InStep.addError {r : Report} (i : Issue) : (r.addError i).InStep := by
  simp [InStep, Report.addError]

theorem InStep.addErrors {r : Report} (h : r.InStep) (is : List Issue) :
    (r.addErrors is).InStep := by
  induction is generalizing r with
  | nil => exact h
  | cons i is ih => exact ih (InStep.addError i)

theorem InStep.addWarnings {r : Report} (h : r.InStep) (is : List Issue) :
    (r.addWarnings is).InStep := by
  induction is generalizing r with
  | nil => exact h
  | cons i is ih => exact ih h

theorem InStep.merge {r s : Report} (hr : r.InStep) (hs : s.InStep) : (r.merge s).InStep := by
  unfold InStep at *
  show (r.isValid && s.isValid) = (r.errors ++ s.errors).isEmpty
  rw [hr, hs]
  cases r.errors <;> rfl

theorem InStep.mergeUnreported {r : Report} (h : r.InStep) (s : Report) :
    (r.mergeUnreported s).InStep :=
  (h.addErrors _).addWarnings _

theorem inStep_ofErrors (is : List Issue) : (ofErrors is).InStep := inStep_empty.addErrors is

theorem InStep.isValid_iff {r : Report} (h : r.InStep) : r.isValid = true ↔ r.errors = [] := by
  rw [h, List.isEmpty_iff]

end Report

end SignedDocs
