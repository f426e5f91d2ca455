import SignedDocs.Cddl.File
import SignedDocs.Draft.Checks
import SignedDocs.Draft.Reading
import SignedDocs.Failure
import SignedDocs.FieldView
import SignedDocs.ReferenceGraph

/-!
Specifications that passed all checks, and questions about them.

* `ofJson`: reads and checks a value; a rejection lists all errors of its shape,
  then those of the checks that do not concern the same places.
* `ofDraft`: checks what was read before.
* Accepted specifications have a graph of references and three synthesized
  definitions: of the headers of documents and signatures and of the metadata.
-/

namespace SignedDocs

/-- The sets of headers that have a synthesized definition. -/
inductive HeaderKind where
  | document
  | signature
  | metadata
deriving DecidableEq, Repr

def HeaderKind.all : List HeaderKind := [.document, .signature, .metadata]

/-- The name of the definition of a set of headers. -/
def Settings.definitionName (s : Settings) : HeaderKind → String
  | .document => s.documentDefinition
  | .signature => s.signatureDefinition
  | .metadata => s.metadataDefinition

namespace Draft

/-- The headers of a kind, of a document or global; those of signatures are always
global. -/
def headersOf (d : Draft) : HeaderKind → Option Document → List (Scoped HeaderRule)
  | .document, some doc => (doc.headers.map ProtectedHeader.toHeaderRule).all
  | .document, none => (d.cose.headers.map ProtectedHeader.toHeaderRule).all
  | .signature, _ => (d.cose.signature.map ProtectedHeader.toHeaderRule).all
  | .metadata, some doc => (doc.metadata.map MetadataField.toHeaderRule).all
  | .metadata, none => (d.metadata.headers.map MetadataField.toHeaderRule).all

def formatsOf (d : Draft) : HeaderKind → Formats
  | .metadata => d.metadata.formats
  | _ => d.cose.formats

/-- The definition of a set of headers; a declared one of the name gives description
and comment. -/
def synthesize (d : Draft) (name : String) (kind : HeaderKind) (doc : Option Document) :
    Except Cddl.GroupError Cddl.Definition :=
  Cddl.synthesize name (d.cddl.declared.get? name) (d.headersOf kind doc) (d.formatsOf kind)

/-- The draft with the synthesized definition of a kind. -/
def prime (s : Settings) (d : Draft) (kind : HeaderKind) : Draft :=
  let name := s.definitionName kind
  { d with cddl := d.cddl.addSynthesized name (d.synthesize name kind none) }

end Draft

structure Specification where
  settings : Settings
  content : Draft
  graph : ReferenceGraph
  warnings : List Issue

namespace Specification

/-! ## Loading -/

/-- The report on a draft: the errors of its shape, then what the checks find
elsewhere. -/
def report [JsonSchema.Engine] (s : Settings) (structural : Report) (d : Draft) : Report :=
  structural.mergeUnreported (d.check s)

/-- An accepted draft with its derived parts. -/
def ofAccepted (s : Settings) (d : Draft) (warnings : List Issue) : Specification where
  settings := s
  content := HeaderKind.all.foldl (Draft.prime s) d
  graph := .ofDocuments d.docs s.referenceFormat
  warnings := warnings

def build [JsonSchema.Engine] (s : Settings) (structural : Report) (d : Draft) :
    Except Failure Specification :=
  let r := report s structural d
  if r.isValid then .ok (ofAccepted s d r.warnings) else .error (.rejected r)

/-- Reads and checks a value. -/
def ofJson [JsonSchema.Engine] (s : Settings) (root : Json) : Except Failure Specification :=
  match Draft.read root with
  | (some d, structural) => build s structural d
  | (none, structural) => .error (.rejected structural)

/-- Checks what was read before. -/
def ofDraft [JsonSchema.Engine] (s : Settings) (d : Draft) : Except Failure Specification :=
  build s .empty d

/-- A draft without errors of its shape. -/
def readDraft (root : Json) : Except Failure Draft :=
  match Draft.read root with
  | (some d, structural) => if structural.isValid then .ok d else .error (.rejected structural)
  | (none, structural) => .error (.rejected structural)

/-- The value of a JSON text. -/
def parseJson (text : String) : Except Failure Json := (Json.parse text).mapError (.malformed text)

/-- Settings of a TOML text. -/
def parseSettings (text : String) : Except Failure Settings :=
  (Settings.ofToml text).mapError (.badSettings text)

/-- Reads and checks a JSON text. -/
def ofText [JsonSchema.Engine] (s : Settings) (text : String) : Except Failure Specification := do
  ofJson s (← parseJson text)

/-! ## Documents -/

def documentNames (spec : Specification) : List String := spec.content.docs.keys

def document (spec : Specification) (name : String) : Except Failure Document :=
  match spec.content.docs.get? name with
  | some d => .ok d
  | none => .error (.noDocument name)

def documentType (spec : Specification) (name : String) : Except Failure DocType := do
  pure (← spec.document name).type

/-- The first document of a type. -/
def documentOfType? (spec : Specification) (ids : List Uuid) : Option String :=
  (spec.content.docs.entries.find? fun e => e.2.type.ids == ids).map fun e => e.2.name

/-- Names of the base types of a type, joined by slashes. -/
def typeNames (spec : Specification) (t : DocType) : String :=
  t.names fun id => (spec.content.baseTypes.name? id).getD "Unknown"

/-! ## Metadata -/

/-- A field of a document, or a global one. -/
def field (spec : Specification) (name : String) (doc : Option String) :
    Except Failure (Scoped MetadataField) := do
  let fields ← match doc with
    | some d => do pure (← spec.document d).metadata
    | none => pure spec.content.metadata.headers
  match fields.get? name with
  | some f => pure f
  | none => .error (.noField name doc)

def fieldView (spec : Specification) (name : String) (doc : Option String) :
    Except Failure FieldView := do
  pure (.ofField (← spec.field name doc) spec.settings.referenceFormat)

/-- Markdown of some fields. -/
def fieldsMarkdown (spec : Specification) (fields : List (Scoped MetadataField))
    (ids : Option String) : String :=
  Text.trim <| Text.join "\n" <|
    fields.map fun f => (FieldView.ofField f spec.settings.referenceFormat).markdown ids

/-- Markdown of the global fields, or of those of a document that are not excluded. -/
def metadataMarkdown (spec : Specification) : Option String → Except Failure String
  | none => pure (spec.fieldsMarkdown spec.content.metadata.headers.all none)
  | some name => do
    let d ← spec.document name
    pure (spec.fieldsMarkdown (d.metadata.all.filter fun f => !f.record.presence.isExcluded)
      (some d.type.markdown))

/-! ## References -/

def referencesOf (spec : Specification) (doc : String) : Except Failure NameSet :=
  match spec.graph.references? doc with
  | some names => .ok names
  | none => .error (.noDocument doc)

def referencing (spec : Specification) (doc : String) : Except Failure NameSet :=
  match spec.graph.referencedBy? doc with
  | some names => .ok names
  | none => .error (.noDocument doc)

/-! ## Definitions -/

def definition (spec : Specification) (name : String) : Except Failure Cddl.Definition :=
  (spec.content.cddl.get name).mapError .ofLookup

/-- The complete CDDL file of a definition. -/
def cddlFile (spec : Specification) (root : String) : Except Failure String :=
  (spec.content.cddl.file root).mapError .ofLookup

/-- A definition of a set of headers, synthesized anew. -/
def synthesize (spec : Specification) (kind : HeaderKind) (doc : Option String) :
    Except Failure Cddl.Definition := do
  let doc ← doc.mapM spec.document
  (spec.content.synthesize (spec.settings.definitionName kind) kind doc).mapError .synthesis

/-! ## Authorship -/

/-- Authors, copyright and changes of the specification or of a document. -/
def attribution (spec : Specification) : Option String → Except Failure Attribution
  | none => pure (.ofSpecification spec.content.authors spec.content.copyright)
  | some name => do
    let d ← spec.document name
    pure (.ofDocument spec.content.authors spec.content.copyright d.authors d.versions)

end Specification

end SignedDocs
