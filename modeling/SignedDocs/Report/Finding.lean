import SignedDocs.Payload
import SignedDocs.Text.Pattern

/-!
Findings: everything that can be wrong with a specification.

* `Finding.kind`: structural (of the wrong shape), referential (a name that leads
  nowhere), invariant (entries that contradict each other).
* `Finding.message`: the words for it.
-/

namespace SignedDocs

inductive IssueKind where
  | structural
  | referential
  | invariant
deriving DecidableEq, Repr

def IssueKind.word : IssueKind → String
  | .structural => "structural"
  | .referential => "referential"
  | .invariant => "invariant"

inductive Finding where
  | stated (kind : IssueKind) (message : String)
  -- reading
  | rootNotObject (found : Json)
  | notObject (found : Json)
  | unknownField
  | missingField
  | missingSection
  | unreadable (error : ReadError)
  | unfitId (unfit : Uuid.Unfit)
  -- documents
  | emptyType
  | unregisteredType (id : Uuid)
  | emptyChangeLog
  | exampleFault (fault : ExampleFault)
  -- headers and fields
  | unknownFormat (format : String)
  | notMetadataHeader (name : String)
  | notProtectedHeader (name : String)
  | excludesItself
  | foreignPartner (member : String)
  | oneSided (header member : String)
  | ignoredTargets (referenceFormat : String)
  | danglingTarget (target : String)
  | linkNotHeader (linked : String)
  | linkNotField (linked : String)
  | linkNotReference (linked : String)
  | linkUndefined (target linked field : String)
  -- definitions
  | danglingRequirement (required : String)
  | danglingFormat (cddl : String)
  -- clusters, links and base types
  | foreignMember (doc : String)
  | claimedTwice (doc owner : String)
  | notWebAddress
  | uncheckedLinks (fault : Pattern.Fault)
  | danglingAlias (target : String)
  | reusedId (id : Uuid) (owner : String)

namespace Finding

def kind : Finding → IssueKind
  | .stated kind _ => kind
  | .unregisteredType _ => .referential
  | .unknownFormat _ => .referential
  | .notMetadataHeader _ => .referential
  | .notProtectedHeader _ => .referential
  | .excludesItself => .invariant
  | .foreignPartner _ => .referential
  | .oneSided _ _ => .invariant
  | .danglingTarget _ => .referential
  | .linkNotHeader _ => .referential
  | .linkNotField _ => .referential
  | .linkNotReference _ => .referential
  | .linkUndefined _ _ _ => .referential
  | .danglingRequirement _ => .referential
  | .danglingFormat _ => .referential
  | .foreignMember _ => .referential
  | .claimedTwice _ _ => .invariant
  | .danglingAlias _ => .referential
  | .reusedId _ _ => .invariant
  | _ => .structural

/-- A name in backticks. -/
def code (name : String) : String := "`" ++ name ++ "`"

def message : Finding → String
  | .stated _ text => text
  | .rootNotObject v => "specification must be a JSON object, found " ++ v.kind
  | .notObject v => "expected an object, found " ++ v.kind
  | .unknownField => "unknown field"
  | .missingField => "missing required field"
  | .missingSection => "missing required section"
  | .unreadable error => error.message
  | .unfitId unfit => unfit.message
  | .emptyType => "document type cannot be empty"
  | .unregisteredType id => "type id " ++ id.hyphenated ++ " is not a registered base type"
  | .emptyChangeLog => "change log cannot be empty"
  | .exampleFault fault => fault.message
  | .unknownFormat f => "format " ++ code f ++ " does not exist"
  | .notMetadataHeader n => code n ++ " is not a metadata header"
  | .notProtectedHeader n => code n ++ " is not a COSE header"
  | .excludesItself => "a field cannot exclude itself"
  | .foreignPartner m => "exclusive field " ++ code m ++ " is not defined in the same scope"
  | .oneSided h m => code h ++ " excludes " ++ code m ++ " but " ++ code m ++ " does not exclude " ++ code h
  | .ignoredTargets f => "`type` is ignored unless the format is " ++ code f
  | .danglingTarget t => "referenced document " ++ code t ++ " does not exist"
  | .linkNotHeader l => "linked reference " ++ code l ++ " is not a metadata header"
  | .linkNotField l => "linked reference " ++ code l ++ " is not a metadata field of this document"
  | .linkNotReference l => "linked reference " ++ code l ++ " is not a document reference"
  | .linkUndefined t l f =>
    "document " ++ code t ++ " referenced by " ++ code l ++ " does not define " ++ code f
  | .danglingRequirement r => "required definition " ++ code r ++ " does not exist"
  | .danglingFormat c => "CDDL definition " ++ code c ++ " does not exist"
  | .foreignMember d => "document " ++ code d ++ " does not exist"
  | .claimedTwice d o => "document " ++ code d ++ " is already in cluster " ++ code o
  | .notWebAddress => "link must be an absolute http(s) URL"
  | .uncheckedLinks fault => "link URLs could not be checked: " ++ fault.message
  | .danglingAlias t => "link " ++ code t ++ " does not exist"
  | .reusedId id o =>
    "type id " ++ id.hyphenated ++ " is already used by base type " ++ code o

end Finding

end SignedDocs
