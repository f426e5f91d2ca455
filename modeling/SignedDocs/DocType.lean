import SignedDocs.Record.Codec

/-!
Document types: identifiers of base types in their order.

Three texts: the names joined by slashes, a CBOR array, and a list of identifiers
for a table cell.
-/

namespace SignedDocs

structure DocType where
  ids : List Uuid
deriving DecidableEq, Repr

namespace DocType

theorem eq_iff_ids {a b : DocType} : a = b ↔ a.ids = b.ids := by
  cases a
  cases b
  simp

def codec : Codec DocType where
  read v := ((Codec.list .uuid).read v).map mk
  write t := (Codec.list .uuid).write t.ids

/-- Names of the base types, joined by slashes. -/
def names (t : DocType) (nameOf : Uuid → String) : String := Text.join "/" (t.ids.map nameOf)

/-- A CBOR array of the identifiers. -/
def cbor (t : DocType) : String := "[" ++ Text.join ", " (t.ids.map Uuid.cbor) ++ "]"

/-- The identifiers as code, with line breaks between them. -/
def markdown (t : DocType) : String :=
  Text.join ",<br/>" (t.ids.map fun id => "`" ++ id.hyphenated ++ "`")

end DocType

end SignedDocs
