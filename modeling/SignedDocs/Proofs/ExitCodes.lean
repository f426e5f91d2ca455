import SignedDocs.Proofs.Definitions
import SignedDocs.Proofs.ReferenceBlocks

/-!
Exit codes: the first step that fails decides.

* `Command.Knows`: what a command asks for is there. Such questions of an accepted specification
  have an answer, and all others are about names that are not found (`Settles`).
* `Answers`: how a command on an accepted specification ends.
* `Ends`: how a run ends, step by step: settings, specification, command.
* `exit_run`: a run exits as its first failing step says, and never with 1 on an accepted
  specification unless its file cannot be written.
-/

namespace SignedDocs.CommandLine

/-- The exit code of a step; `unwritten` is the reason if its file cannot be written. -/
def Step.exit (unwritten : Option String) : Step → Nat
  | .finished o => o.exit
  | .write _ _ next => (next unwritten).exit

/-! ## Questions -/

/-- The document, the field or the definition that is asked for is there. A document takes the
place of a definition, and a field is looked for among those of the document. -/
def Command.Knows (spec : Specification) : Command → Prop
  | .validate _ _ => True
  | .cddl _ root none _ => root ∈ spec.content.cddl.names
  | .cddl _ _ (some doc) _ => doc ∈ spec.documentNames
  | .refs _ none => True
  | .refs _ (some doc) => doc ∈ spec.documentNames
  | .metadata _ none none => True
  | .metadata _ (some doc) none => doc ∈ spec.documentNames
  | .metadata _ none (some field) => field ∈ spec.content.metadata.headers.names
  | .metadata _ (some doc) (some field) =>
    ∃ d, spec.content.docs.get? doc = some d ∧ field ∈ d.metadata.names

/-- There is an answer if what is asked for is known, and otherwise the name is not found. -/
structure Settles {α : Type} (answer : Except Failure α) (known : Prop) : Prop where
  answered : known → ∃ a, answer = .ok a
  notFound : ¬known → ∃ failure, answer = .error failure ∧ exitCode failure = 2

section Questions

variable {s : Settings} {root : Json} {spec : Specification}

theorem Settles.map {α β : Type} {answer : Except Failure α} {known : Prop}
    (h : Settles answer known) (f : α → β) : Settles (answer.map f) known where
  answered hknown := by
    obtain ⟨a, rfl⟩ := h.answered hknown
    exact ⟨f a, rfl⟩
  notFound hunknown := by
    obtain ⟨failure, rfl, hcode⟩ := h.notFound hunknown
    exact ⟨failure, rfl, hcode⟩

theorem Settles.exit_of_known {answer : Except Failure String} {known : Prop}
    (h : Settles answer known) (hknown : known) : (printed answer).exit = 0 := by
  obtain ⟨text, rfl⟩ := h.answered hknown
  rfl

theorem Settles.exit_of_unknown {answer : Except Failure String} {known : Prop}
    (h : Settles answer known) (hunknown : ¬known) : (printed answer).exit = 2 := by
  obtain ⟨failure, rfl, hcode⟩ := h.notFound hunknown
  exact hcode

theorem documentGroups_settles [JsonSchema.Engine] (h : Specification.ofJson s root = .ok spec)
    (doc : String) : Settles (documentGroups spec doc) (doc ∈ spec.documentNames) where
  answered hdoc := by
    have hblocks : ∀ kind ∈ [HeaderKind.document, .metadata], ∃ block, (do
        let d ← spec.synthesize kind (some doc)
        pure (d.name ++ " = " ++ d.rule.body) : Except Failure String) = .ok block := by
      intro kind _
      obtain ⟨d, hd⟩ := (Specification.exists_synthesize_of_ofJson_ok h kind).2 doc hdoc
      rw [hd]
      exact ⟨_, rfl⟩
    obtain ⟨blocks, hblocks⟩ := mapM_ok_iff.mpr hblocks
    unfold documentGroups
    rw [hblocks]
    exact ⟨_, rfl⟩
  notFound hdoc := by
    unfold documentGroups
    rw [List.mapM_cons, Specification.synthesize_of_not_mem .document hdoc]
    exact ⟨_, rfl, rfl⟩

theorem cddlFile_settles [JsonSchema.Engine] (h : Specification.ofJson s root = .ok spec)
    (name : String) : Settles (spec.cddlFile name) (name ∈ spec.content.cddl.names) where
  answered hname := by
    obtain ⟨d, ds, hresolve, -⟩ := Specification.exists_resolve_of_ofJson_ok h hname
    exact ⟨_, Specification.cddlFile_of_resolve hresolve⟩
  notFound hname := ⟨_, Specification.cddlFile_of_not_mem hname, rfl⟩

theorem cddlText_settles [JsonSchema.Engine] (h : Specification.ofJson s root = .ok spec)
    (path name : String) (doc output : Option String) :
    Settles (cddlText spec name doc) ((Command.cddl path name doc output).Knows spec) := by
  cases doc with
  | none => exact cddlFile_settles h name
  | some doc => exact documentGroups_settles h doc

theorem referencesText_settles [JsonSchema.Engine] (h : Specification.ofJson s root = .ok spec)
    (path : String) (doc : Option String) :
    Settles (referencesText spec doc) ((Command.refs path doc).Knows spec) := by
  cases doc with
  | none =>
    obtain ⟨blocks, hblocks⟩ := mapM_ok_iff.mpr (exists_blockOf h)
    exact ⟨fun _ => ⟨_, referencesText_none hblocks⟩, fun hunknown => absurd trivial hunknown⟩
  | some doc =>
    refine ⟨fun hdoc => ?_, fun hdoc => ?_⟩
    · obtain ⟨b, hb⟩ := exists_blockOf h doc hdoc
      exact ⟨_, referencesText_some hb⟩
    · unfold referencesText
      simp only [Specification.document_of_not_mem hdoc]
      exact ⟨_, rfl, rfl⟩

theorem metadataMarkdown_settles (doc : String) :
    Settles (spec.metadataMarkdown (some doc)) (doc ∈ spec.documentNames) where
  answered hdoc := by
    obtain ⟨d, -, hd⟩ := Specification.exists_document hdoc
    unfold Specification.metadataMarkdown
    simp only [hd]
    exact ⟨_, rfl⟩
  notFound hdoc := by
    unfold Specification.metadataMarkdown
    simp only [Specification.document_of_not_mem hdoc]
    exact ⟨_, rfl, rfl⟩

theorem fields_settle (fields : FieldSet MetadataField) (name : String) (doc : Option String) :
    Settles (match fields.get? name with
      | some f => pure f
      | none => .error (.noField name doc) : Except Failure (Scoped MetadataField))
      (name ∈ fields.names) where
  answered hname := by
    obtain ⟨f, hf⟩ := FieldSet.exists_get?_of_mem_names hname
    rw [hf]
    exact ⟨f, rfl⟩
  notFound hname := by
    rw [FieldSet.get?_of_not_mem_names hname]
    exact ⟨_, rfl, rfl⟩

theorem globalField_settles (field : String) :
    Settles (metadataText spec none (some field)) (field ∈ spec.content.metadata.headers.names) := by
  have htext : metadataText spec none (some field) = (spec.field field none).map fun f =>
      (FieldView.ofField f spec.settings.referenceFormat).markdown none := by
    unfold metadataText Specification.fieldView
    simp only [Option.mapM_none]
    cases spec.field field none <;> rfl
  rw [htext]
  exact (fields_settle spec.content.metadata.headers field none).map _

theorem documentField_settles (doc field : String) :
    Settles (metadataText spec (some doc) (some field))
      (∃ d, spec.content.docs.get? doc = some d ∧ field ∈ d.metadata.names) := by
  by_cases hdoc : doc ∈ spec.documentNames
  · obtain ⟨d, hget, hd⟩ := Specification.exists_document hdoc
    have htext : metadataText spec (some doc) (some field) = (spec.field field (some doc)).map fun f =>
        (FieldView.ofField f spec.settings.referenceFormat).markdown (some d.type.markdown) := by
      unfold metadataText Specification.fieldView Specification.documentType
      simp only [Option.mapM_some, hd]
      cases spec.field field (some doc) <;> rfl
    have hfield : Settles (spec.field field (some doc)) (field ∈ d.metadata.names) := by
      unfold Specification.field
      simp only [hd]
      exact fields_settle d.metadata field (some doc)
    rw [htext, hget]
    simpa using hfield.map _
  · refine ⟨?_, fun _ => ?_⟩
    · rintro ⟨d, hget, -⟩
      exact absurd (Table.mem_keys_iff.mpr ⟨d, hget⟩) hdoc
    · unfold metadataText Specification.documentType
      simp only [Option.mapM_some, Specification.document_of_not_mem hdoc]
      exact ⟨_, rfl, rfl⟩

theorem metadataText_settles (path : String) (doc field : Option String) :
    Settles (metadataText spec doc field) ((Command.metadata path doc field).Knows spec) := by
  rcases doc with _ | doc <;> rcases field with _ | field
  · exact ⟨fun _ => ⟨_, rfl⟩, fun hunknown => absurd trivial hunknown⟩
  · exact globalField_settles field
  · exact metadataMarkdown_settles doc
  · exact documentField_settles doc field

end Questions

/-! ## Commands -/

/-- The file that a command writes. -/
def Command.output? : Command → Option String
  | .cddl _ _ _ output => output
  | _ => none

/-- A strict validation does not put up with warnings. -/
def Command.Objects (spec : Specification) (c : Command) : Prop :=
  ∃ path, c = .validate path true ∧ spec.warnings ≠ []

/-- How a command on a specification ends; `unwritten` is the reason if its file cannot be
written. -/
inductive Answers (spec : Specification) (c : Command) (unwritten : Option String) : Nat → Prop where
  | unknown (unknown : ¬c.Knows spec) : Answers spec c unwritten 2
  | warned (objects : c.Objects spec) : Answers spec c unwritten 3
  | undelivered {path reason : String} (known : c.Knows spec) (output : c.output? = some path)
      (failed : unwritten = some reason) : Answers spec c unwritten 1
  | done (known : c.Knows spec) (content : ¬c.Objects spec)
      (delivered : c.output? = none ∨ unwritten = none) : Answers spec c unwritten 0

theorem exists_answers (spec : Specification) (c : Command) (unwritten : Option String) :
    ∃ code, Answers spec c unwritten code := by
  by_cases hknown : c.Knows spec
  · by_cases hobjects : c.Objects spec
    · exact ⟨3, .warned hobjects⟩
    · rcases houtput : c.output? with _ | path
      · exact ⟨0, .done hknown hobjects (Or.inl houtput)⟩
      · rcases unwritten with _ | reason
        · exact ⟨0, .done hknown hobjects (Or.inr rfl)⟩
        · exact ⟨1, .undelivered hknown houtput rfl⟩
  · exact ⟨2, .unknown hknown⟩

section Commands

variable {s : Settings} {root : Json} {spec : Specification} {c : Command}
  {unwritten : Option String}

theorem exit_unknown [JsonSchema.Engine] (h : Specification.ofJson s root = .ok spec)
    (hc : ¬c.Knows spec) : (perform spec c).exit unwritten = 2 := by
  cases c with
  | validate path strict => exact absurd trivial hc
  | cddl path name doc output =>
    obtain ⟨failure, hfailure, hcode⟩ := (cddlText_settles h path name doc output).notFound hc
    unfold perform
    simp only [hfailure]
    exact hcode
  | refs path doc => exact (referencesText_settles h path doc).exit_of_unknown hc
  | metadata path doc field =>
    exact ((metadataText_settles path doc field).map _).exit_of_unknown hc

theorem exit_warned (hc : c.Objects spec) : (perform spec c).exit unwritten = 3 := by
  obtain ⟨path, rfl, hwarnings⟩ := hc
  have hstrict : (true && !spec.warnings.isEmpty) = true := by simpa using hwarnings
  show (validate path true spec).exit = 3
  unfold validate
  rw [if_pos hstrict]
  rfl

theorem exit_undelivered [JsonSchema.Engine] (h : Specification.ofJson s root = .ok spec)
    (hc : c.Knows spec) {path reason : String} (houtput : c.output? = some path) :
    (perform spec c).exit (some reason) = 1 := by
  cases c with
  | cddl file name doc output =>
    obtain ⟨content, hcontent⟩ := (cddlText_settles h file name doc output).answered hc
    cases houtput
    unfold perform
    simp only [hcontent]
    rfl
  | _ => cases houtput

theorem exit_done [JsonSchema.Engine] (h : Specification.ofJson s root = .ok spec)
    (hc : c.Knows spec) (hobjects : ¬c.Objects spec) (hdelivered : c.output? = none ∨ unwritten = none) :
    (perform spec c).exit unwritten = 0 := by
  cases c with
  | validate path strict =>
    have hcontent : ¬(strict && !spec.warnings.isEmpty) = true := by
      intro hstrict
      rw [Bool.and_eq_true] at hstrict
      exact hobjects ⟨path, by rw [hstrict.1], by simpa using hstrict.2⟩
    show (validate path strict spec).exit = 0
    unfold validate
    rw [if_neg hcontent]
    rfl
  | cddl path name doc output =>
    obtain ⟨content, hcontent⟩ := (cddlText_settles h path name doc output).answered hc
    unfold perform
    simp only [hcontent]
    rcases hdelivered with houtput | rfl
    · cases houtput
      rfl
    · cases output <;> rfl
  | refs path doc => exact (referencesText_settles h path doc).exit_of_known hc
  | metadata path doc field =>
    exact ((metadataText_settles path doc field).map _).exit_of_known hc

theorem exit_perform [JsonSchema.Engine] (h : Specification.ofJson s root = .ok spec) {code : Nat}
    (hc : Answers spec c unwritten code) : (perform spec c).exit unwritten = code := by
  cases hc with
  | unknown hunknown => exact exit_unknown h hunknown
  | warned hobjects => exact exit_warned hobjects
  | undelivered hknown houtput hfailed =>
    rw [hfailed]
    exact exit_undelivered h hknown houtput
  | done hknown hcontent hdelivered => exact exit_done h hknown hcontent hdelivered

end Commands

/-! ## Files -/

section Files

variable {ε α : Type} {parse : String → Except ε α}

/-- A file that is there cannot be read, or what it holds is malformed. -/
def FileContent.Unusable (parse : String → Except ε α) (file : FileContent) : Prop :=
  (∃ reason, file = .unreadable reason) ∨
    ∃ content fault, file = .text content ∧ parse content = .error fault

/-- A file holds a value. -/
def FileContent.Holds (parse : String → Except ε α) (a : α) (file : FileContent) : Prop :=
  ∃ content, file = .text content ∧ parse content = .ok a

theorem FileContent.missing_or (parse : String → Except ε α) (file : FileContent) :
    file = .missing ∨ file.Unusable parse ∨ ∃ a, file.Holds parse a := by
  cases file with
  | missing => exact Or.inl rfl
  | unreadable reason => exact Or.inr (Or.inl (Or.inl ⟨reason, rfl⟩))
  | text content =>
    cases hparse : parse content with
    | error fault => exact Or.inr (Or.inl (Or.inr ⟨content, fault, rfl, hparse⟩))
    | ok a => exact Or.inr (Or.inr ⟨a, content, rfl, hparse⟩)

end Files

/-- The settings are the default ones, or those of the file that is named. -/
inductive Configured (files : Files) : Option String → Settings → Prop where
  | default : Configured files none .default
  | named {path : String} {s : Settings} (holds : (files path).Holds Settings.ofToml s) :
      Configured files (some path) s

/-- How a run ends: the first step that fails decides on the exit code. -/
inductive Ends [JsonSchema.Engine] (files : Files) (i : Invocation) (unwritten : Option String) :
    Nat → Prop where
  | noSettings {path : String} (named : i.config = some path) (missing : files path = .missing) :
      Ends files i unwritten 2
  | badSettings {path : String} (named : i.config = some path)
      (unusable : (files path).Unusable Settings.ofToml) : Ends files i unwritten 1
  | noSpecification {s : Settings} (configured : Configured files i.config s)
      (missing : files i.command.path = .missing) : Ends files i unwritten 2
  | badSpecification {s : Settings} (configured : Configured files i.config s)
      (unusable : (files i.command.path).Unusable Json.parse) : Ends files i unwritten 1
  | rejected {s : Settings} {root : Json} {r : Report} (configured : Configured files i.config s)
      (holds : (files i.command.path).Holds Json.parse root)
      (rejected : Specification.ofJson s root = .error (.rejected r)) : Ends files i unwritten 3
  | accepted {s : Settings} {root : Json} {spec : Specification} {code : Nat}
      (configured : Configured files i.config s)
      (holds : (files i.command.path).Holds Json.parse root)
      (accepted : Specification.ofJson s root = .ok spec)
      (answers : Answers spec i.command unwritten code) : Ends files i unwritten code

section Runs

variable {files : Files} {i : Invocation} {unwritten : Option String} {s : Settings}
  {config : Option String} {path : String}

theorem configured_or (files : Files) (config : Option String) :
    (∃ path, config = some path ∧
      (files path = .missing ∨ (files path).Unusable Settings.ofToml)) ∨
      ∃ s, Configured files config s := by
  rcases config with _ | path
  · exact Or.inr ⟨_, .default⟩
  · rcases (files path).missing_or Settings.ofToml with hmissing | hunusable | ⟨s, hholds⟩
    · exact Or.inl ⟨path, rfl, Or.inl hmissing⟩
    · exact Or.inl ⟨path, rfl, Or.inr hunusable⟩
    · exact Or.inr ⟨s, .named hholds⟩

theorem exists_ends [JsonSchema.Engine] (files : Files) (i : Invocation) (unwritten : Option String) :
    ∃ code, Ends files i unwritten code := by
  rcases configured_or files i.config with ⟨path, hpath, hmissing | hunusable⟩ | ⟨s, hs⟩
  · exact ⟨2, .noSettings hpath hmissing⟩
  · exact ⟨1, .badSettings hpath hunusable⟩
  rcases (files i.command.path).missing_or Json.parse with hmissing | hunusable | ⟨root, hroot⟩
  · exact ⟨2, .noSpecification hs hmissing⟩
  · exact ⟨1, .badSpecification hs hunusable⟩
  cases hspec : Specification.ofJson s root with
  | error failure =>
    obtain ⟨r, rfl, -⟩ := Specification.ofJson_error hspec
    exact ⟨3, .rejected hs hroot hspec⟩
  | ok spec =>
    obtain ⟨code, hcode⟩ := exists_answers spec i.command unwritten
    exact ⟨code, .accepted hs hroot hspec hcode⟩

/-! ## Loading -/

/-- What a file is used for, with the attempt in case of a failure. -/
def load {α : Type} (files : Files) (path attempt : String) (use : String → Except Failure α) :
    Except Problem α :=
  (do use (← readText files path)).mapError fun failure => ⟨some attempt, failure⟩

section Loading

variable {ε α β : Type} {attempt : String} {parse : String → Except ε α}
  {use : String → Except Failure β}

theorem load_text (attempt : String) (use : String → Except Failure β) {content : String}
    (h : files path = .text content) :
    load files path attempt use = (use content).mapError fun failure => ⟨some attempt, failure⟩ := by
  unfold load readText
  rw [h]
  rfl

theorem load_of_missing (h : files path = .missing) :
    ∃ p, load files path attempt use = .error p ∧ exitCode p.failure = 2 := by
  unfold load readText
  rw [h]
  exact ⟨_, rfl, rfl⟩

theorem load_of_unusable (h : (files path).Unusable parse)
    (huse : ∀ content fault, parse content = .error fault →
      ∃ failure, use content = .error failure ∧ exitCode failure = 1) :
    ∃ p, load files path attempt use = .error p ∧ exitCode p.failure = 1 := by
  obtain ⟨reason, hfile⟩ | ⟨content, fault, hfile, hfails⟩ := h
  · unfold load readText
    rw [hfile]
    exact ⟨_, rfl, rfl⟩
  · obtain ⟨failure, hfailure, hcode⟩ := huse content fault hfails
    rw [load_text attempt use hfile, hfailure]
    exact ⟨_, rfl, hcode⟩

end Loading

theorem loadSettings_of_configured (h : Configured files config s) :
    loadSettings files config = .ok s := by
  cases h with
  | default => rfl
  | named hholds =>
    obtain ⟨content, hfile, hparsed⟩ := hholds
    refine (load_text _ Specification.parseSettings hfile).trans ?_
    unfold Specification.parseSettings
    rw [hparsed]
    rfl

theorem parseSettings_of_error {content : String} {fault : Settings.Fault}
    (h : Settings.ofToml content = .error fault) :
    ∃ failure, Specification.parseSettings content = .error failure ∧ exitCode failure = 1 := by
  unfold Specification.parseSettings
  rw [h]
  exact ⟨_, rfl, rfl⟩

section Engine

variable [JsonSchema.Engine]

theorem ofText_of_error {content : String} {fault : Json.Malformed}
    (h : Json.parse content = .error fault) :
    ∃ failure, Specification.ofText s content = .error failure ∧ exitCode failure = 1 := by
  unfold Specification.ofText Specification.parseJson
  rw [h]
  exact ⟨_, rfl, rfl⟩

theorem ofText_of_ok {content : String} {root : Json} (h : Json.parse content = .ok root) :
    Specification.ofText s content = Specification.ofJson s root := by
  unfold Specification.ofText Specification.parseJson
  rw [h]
  rfl

/-! ## Runs -/

theorem exit_of_settings_error {p : Problem} (h : loadSettings files i.config = .error p) :
    (run files i).exit unwritten = exitCode p.failure := by
  unfold run
  rw [h]
  rfl

theorem exit_of_specification_error {p : Problem} (hs : loadSettings files i.config = .ok s)
    (h : loadSpecification files s i.command.path = .error p) :
    (run files i).exit unwritten = exitCode p.failure := by
  have hload : (do loadSpecification files (← loadSettings files i.config) i.command.path) =
      .error p := by
    rw [hs]
    exact h
  unfold run
  rw [hload]
  rfl

theorem run_of_ok {spec : Specification} (hs : loadSettings files i.config = .ok s)
    (h : loadSpecification files s i.command.path = .ok spec) :
    run files i = perform spec i.command := by
  have hload : (do loadSpecification files (← loadSettings files i.config) i.command.path) =
      .ok spec := by
    rw [hs]
    exact h
  unfold run
  rw [hload]

theorem run_of_accepted {root : Json} {spec : Specification} (hs : Configured files i.config s)
    (hroot : (files i.command.path).Holds Json.parse root)
    (hspec : Specification.ofJson s root = .ok spec) : run files i = perform spec i.command := by
  obtain ⟨content, hfile, hparsed⟩ := hroot
  refine run_of_ok (loadSettings_of_configured hs) ?_
  refine (load_text _ (Specification.ofText s) hfile).trans ?_
  rw [ofText_of_ok hparsed, hspec]
  rfl

theorem exit_of_ends {code : Nat} (h : Ends files i unwritten code) :
    (run files i).exit unwritten = code := by
  cases h with
  | noSettings hnamed hmissing =>
    have hload : ∃ p, loadSettings files i.config = .error p ∧ exitCode p.failure = 2 := by
      rw [hnamed]
      exact load_of_missing hmissing
    obtain ⟨p, hp, hcode⟩ := hload
    rw [exit_of_settings_error hp, hcode]
  | badSettings hnamed hunusable =>
    have hload : ∃ p, loadSettings files i.config = .error p ∧ exitCode p.failure = 1 := by
      rw [hnamed]
      exact load_of_unusable hunusable fun _ _ => parseSettings_of_error
    obtain ⟨p, hp, hcode⟩ := hload
    rw [exit_of_settings_error hp, hcode]
  | @noSpecification s hs hmissing =>
    have hload : ∃ p, loadSpecification files s i.command.path = .error p ∧
        exitCode p.failure = 2 := load_of_missing hmissing
    obtain ⟨p, hp, hcode⟩ := hload
    rw [exit_of_specification_error (loadSettings_of_configured hs) hp, hcode]
  | @badSpecification s hs hunusable =>
    have hload : ∃ p, loadSpecification files s i.command.path = .error p ∧
        exitCode p.failure = 1 := load_of_unusable hunusable fun _ _ => ofText_of_error
    obtain ⟨p, hp, hcode⟩ := hload
    rw [exit_of_specification_error (loadSettings_of_configured hs) hp, hcode]
  | @rejected s root r hs hroot hrejected =>
    obtain ⟨content, hfile, hparsed⟩ := hroot
    have hload : loadSpecification files s i.command.path = _ :=
      load_text _ (Specification.ofText s) hfile
    rw [ofText_of_ok hparsed, hrejected] at hload
    exact exit_of_specification_error (loadSettings_of_configured hs) hload
  | accepted hs hroot hspec hanswers =>
    rw [run_of_accepted hs hroot hspec]
    exact exit_perform hspec hanswers

end Engine

end Runs

/-- The first step that fails decides on the exit code of a run. Once its specification is
accepted, a run exits with 1 only if it has a file to write and cannot; the references of all
documents and the metadata of the whole specification are always printed. -/
theorem exit_run [JsonSchema.Engine] (files : Files) (i : Invocation) (unwritten : Option String) :
    (∀ code, (run files i).exit unwritten = code ↔ Ends files i unwritten code) ∧
      ∀ s root spec, Configured files i.config s →
        (files i.command.path).Holds Json.parse root → Specification.ofJson s root = .ok spec →
        ((run files i).exit unwritten = 1 → i.command.output? ≠ none ∧ unwritten ≠ none) ∧
        (∀ path, i.command = .refs path none → (run files i).exit unwritten = 0) ∧
        ∀ path, i.command = .metadata path none none → (run files i).exit unwritten = 0 := by
  refine ⟨?_, ?_⟩
  · intro code
    constructor
    · intro hcode
      obtain ⟨other, h⟩ := exists_ends files i unwritten
      rw [← hcode, exit_of_ends h]
      exact h
    · exact exit_of_ends
  · intro s root spec hs hroot hspec
    rw [run_of_accepted hs hroot hspec]
    refine ⟨?_, ?_, ?_⟩
    · intro hone
      obtain ⟨code, hcode⟩ := exists_answers spec i.command unwritten
      rw [exit_perform hspec hcode] at hone
      subst hone
      cases hcode with
      | undelivered hknown houtput hfailed =>
        rw [houtput, hfailed]
        exact ⟨Option.some_ne_none _, Option.some_ne_none _⟩
    · intro path hpath
      rw [hpath]
      exact exit_perform hspec (.done trivial (fun ⟨_, h, _⟩ => by cases h) (Or.inl rfl))
    · intro path hpath
      rw [hpath]
      exact exit_perform hspec (.done trivial (fun ⟨_, h, _⟩ => by cases h) (Or.inl rfl))

end SignedDocs.CommandLine
