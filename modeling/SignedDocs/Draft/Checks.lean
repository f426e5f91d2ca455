import SignedDocs.Draft
import SignedDocs.Settings

/-!
Checks across the entries of a specification.

* Each check gives a report of its own; `Draft.check` is all of them, one after the
  other.
* `Draft.scopes`: the five kinds of header sets, each with the formats it may use.
  Formats and exclusion are checked scope by scope.
-/

namespace SignedDocs

/-- A set of headers, where it stands, and the formats it may use. -/
structure Scope where
  place : List String
  headers : FieldSet HeaderRule
  formats : Formats

namespace Scope

/-- Headers with a format that does not exist. -/
def unknownFormats (s : Scope) : List Issue :=
  (s.headers.all.filter fun h => !s.formats.contains h.record.format).map fun h =>
    ⟨s.place ++ [h.name, "format"], .unknownFormat h.record.format⟩

/-- What is wrong with a name among those that a header excludes. -/
def exclusionFault (headers : FieldSet HeaderRule) (name member : String) : Option Finding :=
  if member = name then some .excludesItself
  else match headers.get? member with
    | none => some (.foreignPartner member)
    | some other =>
      if other.record.exclusive.contains name then none else some (.oneSided name member)

/-- Names that a header must not exclude. -/
def exclusionFaults (s : Scope) : List Issue :=
  s.headers.all.flatMap fun h =>
    (h.record.exclusive.filterMap (exclusionFault s.headers h.name)).map fun finding =>
      ⟨s.place ++ [h.name, "exclusive"], finding⟩

end Scope

namespace Draft

/-! ## Scopes -/

def protectedScope (d : Draft) (place : List String) (hs : FieldSet ProtectedHeader) : Scope :=
  ⟨place, hs.map ProtectedHeader.toHeaderRule, d.cose.formats⟩

def metadataScope (d : Draft) (place : List String) (fs : FieldSet MetadataField) : Scope :=
  ⟨place, fs.map MetadataField.toHeaderRule, d.metadata.formats⟩

/-- The global scopes, then those of each document. -/
def scopes (d : Draft) : List Scope :=
  [d.metadataScope ["metadata", "headers"] d.metadata.headers,
   d.protectedScope ["cose", "headers"] d.cose.headers,
   d.protectedScope ["cose", "signature_headers"] d.cose.signature] ++
  d.docs.values.flatMap fun doc =>
    [d.metadataScope ["docs", doc.name, "metadata"] doc.metadata,
     d.protectedScope ["docs", doc.name, "headers"] doc.headers]

/-- Every header uses a format of its scope. -/
def checkFormats (d : Draft) : Report := .ofErrors (d.scopes.flatMap Scope.unknownFormats)

/-- Exclusion stays within a scope, is mutual, and never concerns a header itself. -/
def checkExclusivity (d : Draft) : Report := .ofErrors (d.scopes.flatMap Scope.exclusionFaults)

/-! ## Documents -/

/-- Every document has a type; it should be made of registered base types. -/
def checkTypes (d : Draft) : Report :=
  (Report.ofErrors <| (d.docs.values.filter fun doc => doc.type.ids.isEmpty).map fun doc =>
    ⟨["docs", doc.name, "type"], .emptyType⟩).addWarnings <|
  d.docs.values.flatMap fun doc =>
    (doc.type.ids.filter fun id => (d.baseTypes.name? id).isNone).map fun id =>
      ⟨["docs", doc.name, "type"], .unregisteredType id⟩

/-- Change logs are not empty. -/
def checkVersions (d : Draft) : Report := .ofErrors <|
  (if d.copyright.versions.isEmpty then [⟨["copyright", "versions"], .emptyChangeLog⟩] else []) ++
  (d.docs.values.filter fun doc => doc.versions.isEmpty).map fun doc =>
    ⟨["docs", doc.name, "versions"], .emptyChangeLog⟩

/-- Orders should only name global headers. -/
def checkOrders (d : Draft) : Report :=
  Report.empty.addWarnings <|
    ((d.metadata.order.filter fun n => !d.metadata.headers.contains n).map fun n =>
      ⟨["metadata", "order"], .notMetadataHeader n⟩) ++
    ((d.cose.order.filter fun n => !d.cose.headers.contains n).map fun n =>
      ⟨["cose", "headersOrder"], .notProtectedHeader n⟩)

/-- Examples match the schema of their payload. -/
def checkPayloads [JsonSchema.Engine] (docs : Documents) : Report := .ofErrors <|
  docs.values.flatMap fun doc =>
    ((doc.payload.map Payload.faults).getD []).map fun fault =>
      ⟨["docs", doc.name, "payload", "examples"], .exampleFault fault⟩

/-! ## References -/

/-- The metadata fields of the specification and of each document. -/
def fieldSets (d : Draft) : List (List String × FieldSet MetadataField) :=
  (["metadata", "headers"], d.metadata.headers) ::
  d.docs.values.map fun doc => (["docs", doc.name, "metadata"], doc.metadata)

/-- Targets of a reference that are no documents. -/
def danglingTargets (d : Draft) (referenceFormat : String) (place : List String)
    (f : Scoped MetadataField) : List Issue :=
  if f.record.isReference referenceFormat then
    (f.record.targets.filter fun t => !d.docs.contains t).map fun t =>
      ⟨place ++ [f.name, "type"], .danglingTarget t⟩
  else []

/-- Targets of a field that is no reference. -/
def ignoredTargets (referenceFormat : String) (place : List String) (f : Scoped MetadataField) :
    List Issue :=
  if !f.record.isReference referenceFormat && !f.record.targets.isEmpty then
    [⟨place ++ [f.name, "type"], .ignoredTargets referenceFormat⟩]
  else []

/-- References lead to documents. -/
def checkReferences (d : Draft) (s : Settings) : Report :=
  (Report.ofErrors <| d.fieldSets.flatMap fun e =>
    e.2.all.flatMap (d.danglingTargets s.referenceFormat e.1)).addWarnings <|
  d.fieldSets.flatMap fun e =>
    e.2.all.flatMap (ignoredTargets s.referenceFormat e.1)

/-- Global linked references are global fields. -/
def globalLinkFaults (d : Draft) : List Issue :=
  d.metadata.headers.all.flatMap fun f =>
    (f.record.linkedRefs.filter fun l => !d.metadata.headers.contains l).map fun l =>
      ⟨["metadata", "headers", f.name, "linked_refs"], .linkNotHeader l⟩

/-- The document has the field, and it is not excluded. -/
def definesField (d : Draft) (doc field : String) : Bool :=
  match (d.docs.get? doc).bind fun t => t.metadata.get? field with
  | some f => !f.record.presence.isExcluded
  | none => false

/-- What is wrong with a linked reference of a field of a document. -/
def linkFaults (d : Draft) (referenceFormat : String) (fields : FieldSet MetadataField)
    (field linked : String) : List Finding :=
  match fields.get? linked with
  | none => [.linkNotField linked]
  | some reference =>
    if !reference.record.isReference referenceFormat then [.linkNotReference linked]
    else
      -- targets that do not exist are found by `checkReferences`
      (reference.record.targets.filter fun t =>
        d.docs.contains t && !d.definesField t field).map fun t => .linkUndefined t linked field

/-- Linked references of a document. -/
def docLinkFaults (d : Draft) (referenceFormat : String) (name : String)
    (fields : FieldSet MetadataField) : List Issue :=
  (fields.all.filter fun f => !f.record.presence.isExcluded).flatMap fun f =>
    (f.record.linkedRefs.flatMap (d.linkFaults referenceFormat fields f.name)).map fun finding =>
      ⟨["docs", name, "metadata", f.name, "linked_refs"], finding⟩

/-- Linked references are references of the same scope, and every document that one
leads to has the linking field. -/
def checkLinkedRefs (d : Draft) (s : Settings) : Report := .ofErrors <|
  d.globalLinkFaults ++
  d.docs.values.flatMap fun doc => d.docLinkFaults s.referenceFormat doc.name doc.metadata

/-! ## Definitions -/

/-- Formats whose CDDL type is not known. -/
def danglingFormats (known : String → Bool) (place : List String) (formats : Formats) :
    List Issue :=
  (formats.entries.filter fun e => !known e.2.cddl).map fun e =>
    ⟨place ++ [e.1, "cddl"], .danglingFormat e.2.cddl⟩

/-- Requirements of definitions and types of formats are definitions; those that are
still to be synthesized count. -/
def checkCddl (d : Draft) (s : Settings) : Report :=
  let synthesized := s.synthesizedNames
  let known := fun n => d.cddl.contains n || synthesized.contains n
  .ofErrors <|
    ((d.cddl.unresolved synthesized).map fun e =>
      ⟨["cddlDefinitions", e.1, "requires"], .danglingRequirement e.2⟩) ++
    danglingFormats known ["metadata", "formats"] d.metadata.formats ++
    danglingFormats known ["cose", "headerFormats"] d.cose.formats

/-! ## Clusters and links -/

/-- A document that a cluster claims. -/
structure Claim where
  cluster : String
  doc : String
deriving DecidableEq, Repr

def claims (d : Draft) : List Claim :=
  d.clusters.all.flatMap fun c => c.docs.map fun doc => ⟨c.name, doc⟩

/-- What is wrong with a claim after others, of which the last one comes first. -/
def claimFaults (d : Draft) (earlier : List Claim) (c : Claim) : List Finding :=
  (if d.docs.contains c.doc then [] else [.foreignMember c.doc]) ++
  match earlier.find? fun e => e.doc == c.doc with
  | some e => if e.cluster = c.cluster then [] else [.claimedTwice c.doc e.cluster]
  | none => []

def claimIssues (d : Draft) : List Claim → List Claim → List Issue
  | _, [] => []
  | earlier, c :: cs =>
    ((d.claimFaults earlier c).map fun f => ⟨["docClusters", c.cluster, "docs"], f⟩) ++
      d.claimIssues (c :: earlier) cs

/-- Clusters consist of documents, and no document is in two of them. -/
def checkClusters (d : Draft) : Report := .ofErrors (d.claimIssues [] d.claims)

/-- Links that are no web addresses. -/
def malformedLinks (l : Links) : List Issue :=
  match l.malformed with
  | .ok names => names.map fun n => ⟨["documentationLinks", n], .notWebAddress⟩
  | .error fault => [⟨["documentationLinks"], .uncheckedLinks fault⟩]

/-- Links are web addresses, and aliases stand for links. -/
def checkLinks (d : Draft) : Report := .ofErrors <|
  malformedLinks d.links ++
  d.links.dangling.map fun e => ⟨["linkAKA", e.1], .danglingAlias e.2⟩

/-! ## All checks -/

/-- All checks; examples only if the settings ask for them. -/
def check [JsonSchema.Engine] (d : Draft) (s : Settings) : Report := .mergeAll <|
  [d.checkTypes, d.checkVersions, d.checkFormats, d.checkOrders, d.checkExclusivity,
   d.checkReferences s, d.checkLinkedRefs s, d.checkCddl s, d.checkClusters, d.checkLinks] ++
  if s.checkExamples then [checkPayloads d.docs] else []

end Draft

end SignedDocs
