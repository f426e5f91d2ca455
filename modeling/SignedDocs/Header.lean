import SignedDocs.FieldSet
import SignedDocs.Presence

/-!
Header and metadata fields.

* `HeaderRule`: what both have in common: label, presence, format and the fields
  that must not stand beside it.
* `ProtectedHeader`: a header with its fixed values.
* `MetadataField`: a field that may refer to other documents.
-/

namespace SignedDocs

/-! ## Labels -/

/-- The key of a header: a small integer or a text. -/
inductive Label where
  | int (n : Int)
  | text (s : String)
deriving DecidableEq, Repr

namespace Label

/-- An integer stands for itself, a text is put in quotes. -/
def render : Label → String
  | .int n => toString n
  | .text s => "\"" ++ s ++ "\""

/-- A text or a signed integer of 64 bits. -/
def read : Json → Except ReadError Label
  | .string s => .ok (.text s)
  | .number (.int n) =>
    if IsSigned 63 n then .ok (.int n) else .error (.noAlternative "CoseLabel")
  | _ => .error (.noAlternative "CoseLabel")

def write : Label → Json
  | .int n => .int n
  | .text s => .string s

def codec : Codec Label := ⟨read, write⟩

end Label

/-! ## Rules -/

structure HeaderRule where
  label : Option Label
  presence : Presence
  format : String
  exclusive : List String
deriving DecidableEq, Repr

/-- The key of a field: its label, or its name in quotes. -/
def Scoped.label (h : Scoped HeaderRule) : String :=
  match h.record.label with
  | some l => l.render
  | none => "\"" ++ h.name ++ "\""

/-! ## Protected headers -/

structure ProtectedHeader extends HeaderRule where
  description : String
  value : List String
deriving DecidableEq, Repr

namespace ProtectedHeader

def fields : Fields (Option Label × String × Presence × String × List String × List String × Unit) :=
  .defaulted "coseLabel" (.optional Label.codec) none <|
  .required "description" .text <|
  .required "required" Presence.codec <|
  .required "format" .text <|
  .defaulted "value" .textOrList [] <|
  .defaulted "exclusive" .textOrList [] .nil

def codec : Codec ProtectedHeader :=
  .record "CoseHeader" fields
    (fun (label, description, presence, format, value, exclusive, _) =>
      ⟨⟨label, presence, format, exclusive⟩, description, value⟩)
    (fun h => (h.label, h.description, h.presence, h.format, h.value, h.exclusive, ()))

end ProtectedHeader

/-! ## Metadata fields -/

structure MetadataField extends HeaderRule where
  description : String
  validation : Option String
  targets : List String
  multiple : Option Bool
  linkedRefs : List String
deriving DecidableEq, Repr

namespace MetadataField

def fields : Fields (Option Label × String × Presence × String × Option String × List String ×
    Option Bool × List String × List String × Unit) :=
  .defaulted "coseLabel" (.optional Label.codec) none <|
  .required "description" .text <|
  .required "required" Presence.codec <|
  .required "format" .text <|
  .defaulted "validation" (.optional .text) none <|
  .defaulted "type" .textOrList [] <|
  .defaulted "multiple" (.optional .flag) none <|
  .defaulted "linked_refs" .textOrList [] <|
  .defaulted "exclusive" .textOrList [] .nil

def codec : Codec MetadataField :=
  .record "MetadataHeader" fields
    (fun (label, description, presence, format, validation, targets, multiple, linkedRefs,
        exclusive, _) =>
      ⟨⟨label, presence, format, exclusive⟩, description, validation, targets, multiple,
        linkedRefs⟩)
    (fun f => (f.label, f.description, f.presence, f.format, f.validation, f.targets, f.multiple,
      f.linkedRefs, f.exclusive, ()))

/-- More than one value is allowed. -/
def isMultiple (f : MetadataField) : Bool := f.multiple.getD false

/-- The field refers to documents: its format is the reference format. -/
def isReference (f : MetadataField) (referenceFormat : String) : Bool := f.format == referenceFormat

end MetadataField

end SignedDocs
