import SignedDocs.CommandLine.Arguments
import SignedDocs.Specification

/-!
Commands, as functions of the files they read.

* `start`: what a request prints, or the file it wants to write with what it prints
  after that.
* Exit codes: 0 for success, 1 for a general failure, 2 for wrong arguments and for
  names that are not found, 3 for a rejected specification.
-/

namespace SignedDocs.CommandLine

/-- What is under the path of a file. -/
inductive FileContent where
  | missing
  | unreadable (reason : String)
  | text (content : String)
deriving DecidableEq, Repr

/-- The files that can be read. -/
abbrev Files := String → FileContent

structure Outcome where
  exit : Nat
  stdout : String
  stderr : String
deriving DecidableEq, Repr

/-- An outcome, or a file to be written first: without success `next` gets the reason. -/
inductive Step where
  | finished (outcome : Outcome)
  | write (path content : String) (next : Option String → Outcome)

/-! ## Failures -/

/-- A failure, with what was attempted. -/
structure Problem where
  attempt : Option String
  failure : Failure

def Problem.ofFailure (failure : Failure) : Problem := ⟨none, failure⟩

/-- The attempt, the failure and the reason behind it. -/
def Problem.chain (p : Problem) : List String :=
  p.attempt.toList ++ p.failure.message :: p.failure.reason?.toList

def exitCode : Failure → Nat
  | .rejected _ => 3
  | .noFile _ => 2
  | .noDocument _ => 2
  | .noField _ _ => 2
  | .noDefinition _ => 2
  | _ => 1

def errorLine (chain : List String) : String := "❌ Error: " ++ Text.join ": " chain ++ "\n"

/-- The end of a command that failed after printing something. -/
def failed (printed : String) (p : Problem) : Outcome :=
  ⟨exitCode p.failure, printed, errorLine p.chain⟩

def succeeded (printed : String) : Outcome := ⟨0, printed, ""⟩

/-! ## Loading -/

/-- The text of a file. -/
def readText (files : Files) (path : String) : Except Failure String :=
  match files path with
  | .missing => .error (.noFile path)
  | .unreadable reason => .error (.unreadableFile reason)
  | .text content => .ok content

/-- The settings of a file, or the default ones. -/
def loadSettings (files : Files) : Option String → Except Problem Settings
  | none => .ok .default
  | some path =>
    (do Specification.parseSettings (← readText files path)).mapError fun failure =>
      ⟨some ("Failed to read configuration " ++ Text.quotedPath path), failure⟩

def loadSpecification [JsonSchema.Engine] (files : Files) (settings : Settings) (path : String) :
    Except Problem Specification :=
  (do Specification.ofText settings (← readText files path)).mapError fun failure =>
    ⟨some ("Failed to load " ++ Text.quotedPath path), failure⟩

/-! ## Commands -/

def line (text : String) : String := text ++ "\n"

/-- Counts of a specification and its warnings. -/
def summary (path : String) (spec : Specification) : String :=
  line ("📋 " ++ Text.quotedPath path) ++
  line ("   " ++ toString spec.content.docs.size ++ " documents") ++
  line ("   " ++ toString spec.content.baseTypes.size ++ " base types") ++
  line ("   " ++ toString spec.content.cddl.names.length ++ " CDDL definitions") ++
  line ("   " ++ toString spec.graph.edgeCount ++ " reference edges") ++
  String.join (spec.warnings.map fun w => line ("   ⚠️  " ++ w.render)) ++
  line ""

/-- A strict validation takes warnings for errors. -/
def validate (path : String) (strict : Bool) (spec : Specification) : Outcome :=
  if strict && !spec.warnings.isEmpty then
    failed (summary path spec) (.ofFailure (.rejected (.ofErrors spec.warnings)))
  else succeeded (summary path spec ++ line "✅ Specification is valid")

/-- The definitions of the headers and the metadata of a document. -/
def documentGroups (spec : Specification) (doc : String) : Except Failure String := do
  let blocks ← [HeaderKind.document, .metadata].mapM fun kind => do
    let d ← spec.synthesize kind (some doc)
    pure (d.name ++ " = " ++ d.rule.body)
  pure ("; " ++ doc ++ "\n\n" ++ Text.join "\n\n" blocks ++ "\n")

/-- The text that the command for CDDL gives. -/
def cddlText (spec : Specification) (root : String) : Option String → Except Failure String
  | some doc => documentGroups spec doc
  | none => spec.cddlFile root

/-- Prints a text, or writes it to a file. -/
def deliver (content : String) : Option String → Step
  | none => .finished (succeeded content)
  | some path => .write path content fun
    | none => succeeded (line ("✅ CDDL written to " ++ Text.quotedPath path))
    | some reason =>
      ⟨1, "", errorLine ["Failed to write " ++ Text.quotedPath path, reason]⟩

/-- The names a reference leads to, or their cluster. -/
def targetText (spec : Specification) (f : Scoped MetadataField) : String :=
  match spec.content.clusters.matching? f.record.targets with
  | some c => "[" ++ c.name ++ "]"
  | none => Text.join ", " f.record.targets

/-- The references of a document that may be present. -/
def shownReferences (spec : Specification) (d : Document) : List (Scoped MetadataField) :=
  d.metadata.all.filter fun f =>
    !f.record.presence.isExcluded && f.record.isReference spec.settings.referenceFormat

/-- Names with commas, or a word that there are none. -/
def namesOrNone (names : NameSet) : String :=
  if names.isEmpty then "(none)" else Text.join ", " names.toList

/-- What a document refers to and what refers to it. -/
def referenceBlock (spec : Specification) (name : String) : Except Failure String := do
  let d ← spec.document name
  let sources ← spec.referencing name
  pure <|
    line ("📄 " ++ name) ++
    (match spec.content.clusters.containing? name with
      | some c => line ("   cluster: " ++ c.name)
      | none => "") ++
    String.join ((shownReferences spec d).map fun f =>
      line ("   " ++ f.name ++ " → " ++ targetText spec f)) ++
    line ("   referenced by: " ++ namesOrNone sources) ++
    line ""

/-- The blocks of one document or of all. -/
def referencesText (spec : Specification) (doc : Option String) : Except Failure String := do
  let names ← match doc with
    | some name => do
      let _ ← spec.document name
      pure [name]
    | none => pure spec.documentNames
  pure (String.join (← names.mapM (referenceBlock spec)))

/-- Markdown of one field or of all. -/
def metadataText (spec : Specification) (doc : Option String) : Option String → Except Failure String
  | some field => do
    let ids ← doc.mapM fun name => do pure (← spec.documentType name).markdown
    pure ((← spec.fieldView field doc).markdown ids)
  | none => spec.metadataMarkdown doc

/-- The end of a command that prints a text. -/
def printed : Except Failure String → Outcome
  | .ok text => succeeded text
  | .error failure => failed "" (.ofFailure failure)

/-- A command on its specification. -/
def perform (spec : Specification) : Command → Step
  | .validate path strict => .finished (validate path strict spec)
  | .cddl _ root doc output =>
    match cddlText spec root doc with
    | .ok content => deliver content output
    | .error failure => .finished (failed "" (.ofFailure failure))
  | .refs _ doc => .finished (printed (referencesText spec doc))
  | .metadata _ doc field =>
    .finished (printed ((metadataText spec doc field).map fun text => line (Text.trimEnd text)))

/-- Settings, specification, command. -/
def run [JsonSchema.Engine] (files : Files) (i : Invocation) : Step :=
  match (do loadSpecification files (← loadSettings files i.config) i.command.path) with
  | .ok spec => perform spec i.command
  | .error p => .finished (failed "" p)

def versionNumber : String := "0.1.0"

def usage : String :=
  "usage: sdoc [-v] [-c FILE] validate FILE [--strict]\n" ++
  "       sdoc [-v] [-c FILE] cddl FILE [ROOT] [-d DOCUMENT] [-o FILE]\n" ++
  "       sdoc [-v] [-c FILE] refs FILE [-d DOCUMENT]\n" ++
  "       sdoc [-v] [-c FILE] metadata FILE [-d DOCUMENT] [-f FIELD]\n"

/-- What some arguments lead to. -/
def start [JsonSchema.Engine] (files : Files) (args : List String) : Step :=
  match request args with
  | none => .finished ⟨2, "", usage⟩
  | some .help => .finished (succeeded usage)
  | some (.version program) => .finished (succeeded (line (program ++ " " ++ versionNumber)))
  | some (.run i) => run files i

/-- The files that a run reads. -/
def inputs (args : List String) : List String :=
  match request args with
  | some (.run i) => i.config.toList ++ [i.command.path]
  | _ => []

end SignedDocs.CommandLine
