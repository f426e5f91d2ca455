import SignedDocs.Json.Basic

/-!
Checking values against JSON schemas.

An `Engine` decides which schemas can be used, and what in a value does not match one; the rest
of the library works with any engine.
-/

namespace SignedDocs.JsonSchema

/-- Where a value does not match a schema, and in what. -/
structure Mismatch where
  pointer : String
  reason : String
deriving DecidableEq, Repr

class Engine where
  /-- Why a schema cannot be used. -/
  unusable? : Json → Option String
  /-- What in a value does not match a schema that can be used. -/
  mismatches : Json → Json → List Mismatch

end SignedDocs.JsonSchema
