import SignedDocs.Record.Codec
import SignedDocs.Toml.Parser

/-!
Settings: names that have a meaning of their own, and what is checked.

They are read from TOML (`Settings.ofToml`); a key that is missing keeps its default.
-/

namespace SignedDocs

structure Settings where
  /-- Format of the fields that refer to documents. -/
  referenceFormat : String
  /-- Name of the definition of all metadata fields. -/
  metadataDefinition : String
  /-- Name of the definition of the headers of documents. -/
  documentDefinition : String
  /-- Name of the definition of the headers of signatures. -/
  signatureDefinition : String
  checkExamples : Bool
deriving DecidableEq, Repr

namespace Settings

def default : Settings where
  referenceFormat := "Document Reference"
  metadataDefinition := "Signed_Document_Metadata_Headers"
  documentDefinition := "COSE_Document_Standard_Headers"
  signatureDefinition := "COSE_Signature_Standard_Headers"
  checkExamples := true

instance : Inhabited Settings := ⟨default⟩

def fields : Fields (String × String × String × String × Bool × Unit) :=
  .defaulted "document_reference_format" .text default.referenceFormat <|
  .defaulted "metadata_headers_definition" .text default.metadataDefinition <|
  .defaulted "document_headers_definition" .text default.documentDefinition <|
  .defaulted "signature_headers_definition" .text default.signatureDefinition <|
  .defaulted "validate_payload_examples" .flag default.checkExamples .nil

def codec : Codec Settings :=
  .record "SpecConfig" fields (fun (r, m, d, s, e, _) => ⟨r, m, d, s, e⟩)
    (fun s => (s.referenceFormat, s.metadataDefinition, s.documentDefinition,
      s.signatureDefinition, s.checkExamples, ()))

/-- Names of the synthesized definitions: of documents, signatures and metadata. -/
def synthesizedNames (s : Settings) : List String :=
  [s.documentDefinition, s.signatureDefinition, s.metadataDefinition]

/-! ## Reading -/

/-- Numbers in messages have no power of ten. -/
def numberLayout : Layout where
  plain _ := true
  pointZero := true
  tie := .upward

def foundValue : Toml.Value → Found
  | .string s => .string s
  | .bool b => .bool b
  | .integer n => .integer n
  | .real x => .real (numberLayout.render x)
  | .infinity negative => .real (if negative then "-inf" else "inf")
  | .nan => .real "NaN"
  | .moment => .map
  | .array _ => .sequence
  | .table _ => .map

/-- What stands under a key, and where. -/
def found : Toml.Node → Found × Toml.Span
  | .value span v => (foundValue v, span)
  | .table span _ _ => (.map, span)
  | .tables span _ _ => (.sequence, span)

/-- Why a text holds no settings. -/
inductive Fault where
  | unreadable (fault : Toml.Fault)
  | unfit (place : Toml.Span) (error : ReadError)
deriving DecidableEq, Repr

def textValue (node : Toml.Node) : Except Fault String :=
  match node with
  | .value _ (.string s) => .ok s
  | node => .error (.unfit (found node).2 (.invalidType (found node).1 "a string"))

def flagValue (node : Toml.Node) : Except Fault Bool :=
  match node with
  | .value _ (.bool b) => .ok b
  | node => .error (.unfit (found node).2 (.invalidType (found node).1 "a boolean"))

/-- The settings with the one of an entry replaced. -/
def set (s : Settings) (key : Toml.Key) (node : Toml.Node) : Except Fault Settings :=
  match key.name with
  | "document_reference_format" => do pure { s with referenceFormat := ← textValue node }
  | "metadata_headers_definition" => do pure { s with metadataDefinition := ← textValue node }
  | "document_headers_definition" => do pure { s with documentDefinition := ← textValue node }
  | "signature_headers_definition" => do pure { s with signatureDefinition := ← textValue node }
  | "validate_payload_examples" => do pure { s with checkExamples := ← flagValue node }
  | name => .error (.unfit key.span (.unknownField name fields.names))

/-- The settings of a TOML text. -/
def ofToml (text : String) : Except Fault Settings := do
  let entries ← (Toml.parse text).mapError .unreadable
  entries.foldlM (fun s e => s.set e.1 e.2) default

/-! ## Messages -/

/-- The line of a place with marks under it, between a heading and the message. -/
def excerpt (text : String) (span : Toml.Span) (message : String) : String :=
  let cs := text.toList
  let (line, bytes) := Text.placeAfter span.start (1, 0) cs
  let content := (cs.splitOn '\n').getD (line - 1) []
  let column := (Text.takeBytes bytes content).length
  let gutter := String.ofList (List.replicate ((toString line).length + 1) ' ') ++ "|"
  let marks := max 1 (min (span.stop - span.start) (Text.byteCount content - column))
  "TOML parse error at line " ++ toString line ++ ", column " ++ toString (column + 1) ++ "\n" ++
    gutter ++ "\n" ++
    toString line ++ " | " ++ String.ofList content ++ "\n" ++
    gutter ++ String.ofList (List.replicate (column + 1) ' ' ++ List.replicate marks '^') ++ "\n" ++
    message ++ "\n"

def Fault.message (text : String) : Fault → String
  | .unreadable .malformed => "TOML parse error: invalid text\n"
  | .unreadable (.duplicateKey name) => "TOML parse error: duplicate key `" ++ name ++ "`\n"
  | .unfit place error => excerpt text place error.message

end Settings

end SignedDocs
