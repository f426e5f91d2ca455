import SignedDocs.Copyright
import SignedDocs.DocType
import SignedDocs.Header
import SignedDocs.Payload
import SignedDocs.Signers

/-!
Documents.

`DocumentRecord` is a document as it is declared; `DocumentRecord.document` puts its
headers and metadata fields into canonical order.
-/

namespace SignedDocs

/-- Notes on how a document is used. -/
structure BusinessLogic where
  frontEnd : Option String
  backEnd : Option String
deriving DecidableEq, Repr

namespace BusinessLogic

def empty : BusinessLogic := ⟨none, none⟩

def fields : Fields (Option String × Option String × Unit) :=
  .defaulted "front_end" (.optional .text) none <| .defaulted "back_end" (.optional .text) none .nil

def codec : Codec BusinessLogic :=
  .record "BusinessLogic" fields (fun (f, b, _) => ⟨f, b⟩) (fun l => (l.frontEnd, l.backEnd, ()))

end BusinessLogic

/-- What a document is, apart from its headers and metadata fields. -/
structure DocumentBody where
  type : DocType
  description : Option String
  validation : Option String
  businessLogic : BusinessLogic
  notes : List String
  payload : Option Payload
  signers : Signers
  authors : Authors
  versions : List Revision
  isDraft : Bool

/-- A document as it is declared under its name. -/
structure DocumentRecord extends DocumentBody where
  headers : Table ProtectedHeader
  metadata : Table MetadataField

namespace DocumentRecord

def fields : Fields (DocType × Option String × Option String × BusinessLogic × List String ×
    Table ProtectedHeader × Table MetadataField × Option Payload × Signers × Table String ×
    List Revision × Bool × Unit) :=
  .required "type" DocType.codec <|
  .defaulted "description" (.optional .text) none <|
  .defaulted "validation" (.optional .text) none <|
  .defaulted "business_logic" BusinessLogic.codec .empty <|
  .defaulted "notes" (.list .text) [] <|
  .required "headers" (.table ProtectedHeader.codec) <|
  .required "metadata" (.table MetadataField.codec) <|
  .defaulted "payload" (.optional Payload.codec) none <|
  .required "signers" Signers.codec <|
  .required "authors" (.table .text) <|
  .required "versions" (.list Revision.codec) <|
  .defaulted "draft" .flag false .nil

def codec : Codec DocumentRecord :=
  .record "RawDocument" fields
    (fun (type, description, validation, logic, notes, headers, metadata, payload, signers,
        authors, versions, draft, _) =>
      ⟨⟨type, description, validation, logic, notes, payload, signers, authors, versions, draft⟩,
        headers, metadata⟩)
    (fun d => (d.type, d.description, d.validation, d.businessLogic, d.notes, d.headers,
      d.metadata, d.payload, d.signers, d.authors, d.versions, d.isDraft, ()))

end DocumentRecord

/-- A document under its name, with the sets of its headers and fields. -/
structure Document extends DocumentBody where
  name : String
  headers : FieldSet ProtectedHeader
  metadata : FieldSet MetadataField

/-- The document of a record under its name. -/
def DocumentRecord.document (d : DocumentRecord) (name : String)
    (headerOrder metadataOrder : List String) : Document :=
  ⟨d.toDocumentBody, name, .ofTable d.headers headerOrder (some name),
    .ofTable d.metadata metadataOrder (some name)⟩

namespace Document

/-- The header with the content types. -/
def contentTypeHeader : String := "content type"

/-- The content types, or a word that there are none. -/
def contentTypes (d : Document) : List String :=
  match d.headers.get? contentTypeHeader with
  | some h => if h.record.value.isEmpty then ["Undefined"] else h.record.value
  | none => ["Undefined"]

end Document

/-- Documents under their names. -/
abbrev Documents := Table Document

end SignedDocs
