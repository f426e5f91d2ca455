import SignedDocs.Header

/-!
Rules of a metadata field, for readers.

* `narrative`: the declared rules, then a clause for the fields that must not stand
  beside this one and one for each linked reference.
* `FieldView`: what is shown of a field; of an excluded one only its name.
* `FieldView.markdown`: a table and a section on validation.
-/

namespace SignedDocs

/-! ## Clauses -/

/-- A name in backticks. -/
def backticked (name : String) : String := "`" ++ name ++ "`"

/-- Names in backticks, with commas and a last "and". -/
def enumeration (names : List String) : String :=
  match names.map backticked with
  | [] => ""
  | [a] => a
  | [a, b] => a ++ " and " ++ b
  | quoted => Text.join ", " quoted.dropLast ++ ", and " ++ quoted.getLast?.getD ""

/-- The clause that forbids some fields beside this one. -/
def exclusiveClause (members : List String) : Option String :=
  if members.isEmpty then none
  else some ("* MUST NOT be present in any document that also contains metadata " ++
    enumeration members ++ ".")

/-- The clause that ties a field to the document that `linked` leads to. -/
def linkedClause (field linked : String) : String :=
  "* The Document referenced by " ++ backticked linked ++ "\n  * MUST contain " ++
    backticked field ++ " metadata; AND\n  * MUST match the referencing documents " ++
    backticked field ++ " value."

/-- The generated clauses of a field. -/
def clauses (f : Scoped MetadataField) : List String :=
  (exclusiveClause f.record.exclusive).toList ++ f.record.linkedRefs.map (linkedClause f.name)

/-- The declared rules and the clauses, each on new lines. -/
def narrative (f : Scoped MetadataField) : String :=
  Text.trim (f.record.validation.getD "" ++ String.join ((clauses f).map fun c => "\n" ++ c))

/-! ## Views -/

/-- What is shown of a field that may be present. -/
structure FieldDetail where
  format : String
  description : String
  isMultiple : Bool
  references : List String
  linkedRefs : List String
  exclusive : List String
  validation : String
deriving DecidableEq, Repr

structure FieldView where
  name : String
  owner : Option String
  presence : Presence
  detail : Option FieldDetail
deriving DecidableEq, Repr

namespace FieldView

def detailOf (f : Scoped MetadataField) (referenceFormat : String) : FieldDetail where
  format := f.record.format
  description := f.record.description
  isMultiple := f.record.isMultiple
  references := if f.record.isReference referenceFormat then f.record.targets else []
  linkedRefs := f.record.linkedRefs
  exclusive := f.record.exclusive
  validation := narrative f

def ofField (f : Scoped MetadataField) (referenceFormat : String) : FieldView where
  name := f.name
  owner := f.owner
  presence := f.record.presence
  detail := if f.record.presence.isExcluded then none else some (detailOf f referenceFormat)

/-! ## Markdown -/

/-- A row of a table. -/
def row (heading value : String) : String := "| " ++ heading ++ " | " ++ value ++ " |\n"

/-- A row for each value, with the heading on the first. -/
def rows (heading : String) : List String → String
  | [] => ""
  | v :: vs => row heading v ++ String.join (vs.map (row ""))

/-- A heading and the first rows. -/
def opening (v : FieldView) : String :=
  "### " ++ backticked v.name ++ "\n\n<!-- markdownlint-disable MD033 -->\n" ++
    row "Parameter" "Value" ++ row "---" "---" ++ row "Required" v.presence.word

def closing : String := "<!-- markdownlint-enable MD033 -->\n"

def detailMarkdown (name : String) (d : FieldDetail) (ids : Option String) : String :=
  row "Format" (backticked d.format) ++
    (match ids with
      | some ids => if name = "type" then row "Type" ids else ""
      | none => "") ++
    (if d.isMultiple then row "Multiple References" "true" else "") ++
    rows "Valid References" (d.references.map backticked) ++
    rows "Linked Reference Metadata"
      (d.linkedRefs.map fun r => "[" ++ backticked r ++ "](#" ++ r ++ ")") ++
    rows "Exclusive" (d.exclusive.map backticked) ++
    closing ++ Text.trim d.description ++ "\n\n#### " ++ backticked name ++ " Validation\n\n" ++
    d.validation ++ "\n"

/-- A field as Markdown; `ids` is the type of the document, shown for the field of
that name. -/
def markdown (v : FieldView) (ids : Option String) : String :=
  v.opening ++ match v.detail with
    | some d => detailMarkdown v.name d ids
    | none => closing

end FieldView

end SignedDocs
