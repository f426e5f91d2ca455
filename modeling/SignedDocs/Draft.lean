import SignedDocs.BaseTypes
import SignedDocs.Cddl.Registry
import SignedDocs.Cluster
import SignedDocs.Document
import SignedDocs.Links
import SignedDocs.Media

/-!
Specifications as they are read: nothing is checked across entries, and what could
not be read is left out.
-/

namespace SignedDocs

/-- Protected headers, those of signatures, their formats and their order. -/
structure HeaderSection where
  formats : Formats
  headers : FieldSet ProtectedHeader
  order : List String
  signature : FieldSet ProtectedHeader

def HeaderSection.empty : HeaderSection := ⟨Table.empty, .empty, [], .empty⟩

/-- Metadata fields, their formats and their order. -/
structure MetadataSection where
  headers : FieldSet MetadataField
  formats : Formats
  order : List String

def MetadataSection.empty : MetadataSection := ⟨.empty, Table.empty, []⟩

structure Draft where
  authors : Authors
  baseTypes : BaseTypes
  cddl : Cddl.Registry
  contentTypes : Table MediaType
  encodingTypes : Table MediaType
  copyright : Copyright
  cose : HeaderSection
  clusters : Clusters
  docs : Documents
  links : Links
  metadata : MetadataSection
  formTemplate : Option Json
  presentationTemplate : Option Json

end SignedDocs
