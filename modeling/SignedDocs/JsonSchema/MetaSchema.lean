import SignedDocs.JsonSchema.Engine
import SignedDocs.JsonSchema.Validation

/-!
The schema of schemas (draft 7), and schemas that may be applied: those that match
it and whose limits are naturals of 64 bits.

`builtIn`: the engine of this library. It knows draft 7 without patterns, formats and
dependencies, and does not look at `$schema`.
-/

namespace SignedDocs.JsonSchema

def typed (name : String) : Json := .object [("type", .string name)]

def reference (target : String) : Json := .object [("$ref", .string target)]

def anySchema : Json := reference "#"

def schemaList : Json := reference "#/definitions/schemaArray"

def count : Json := reference "#/definitions/nonNegativeInteger"

def countFromZero : Json := reference "#/definitions/nonNegativeIntegerDefault0"

def names : Json := reference "#/definitions/stringArray"

/-- An object that holds schemas. -/
def schemaTable : Json := .object [("type", .string "object"), ("additionalProperties", anySchema)]

def metaDefinitions : Json := .object [
  ("schemaArray", .object [("type", .string "array"), ("minItems", .int 1), ("items", anySchema)]),
  ("nonNegativeInteger", .object [("type", .string "integer"), ("minimum", .int 0)]),
  ("nonNegativeIntegerDefault0", .object [("allOf", .array [count])]),
  ("simpleTypes", .object [("enum", Json.ofStrings (ValueType.all.map ValueType.word))]),
  ("stringArray", .object [("type", .string "array"), ("items", typed "string"),
    ("uniqueItems", .bool true)])]

def metaProperties : Json := .object [
  ("$id", typed "string"),
  ("$schema", typed "string"),
  ("$ref", typed "string"),
  ("$comment", typed "string"),
  ("title", typed "string"),
  ("description", typed "string"),
  ("default", .bool true),
  ("readOnly", typed "boolean"),
  ("examples", typed "array"),
  ("multipleOf", .object [("type", .string "number"), ("exclusiveMinimum", .int 0)]),
  ("maximum", typed "number"),
  ("exclusiveMaximum", typed "number"),
  ("minimum", typed "number"),
  ("exclusiveMinimum", typed "number"),
  ("maxLength", count),
  ("minLength", countFromZero),
  ("pattern", typed "string"),
  ("additionalItems", anySchema),
  ("items", .object [("anyOf", .array [anySchema, schemaList])]),
  ("maxItems", count),
  ("minItems", countFromZero),
  ("uniqueItems", typed "boolean"),
  ("contains", anySchema),
  ("maxProperties", count),
  ("minProperties", countFromZero),
  ("required", names),
  ("additionalProperties", anySchema),
  ("definitions", schemaTable),
  ("properties", schemaTable),
  ("patternProperties", schemaTable),
  ("dependencies", .object [("type", .string "object"),
    ("additionalProperties", .object [("anyOf", .array [anySchema, names])])]),
  ("propertyNames", anySchema),
  ("const", .bool true),
  ("enum", typed "array"),
  ("type", .object [("anyOf", .array [
    reference "#/definitions/simpleTypes",
    .object [("type", .string "array"), ("items", reference "#/definitions/simpleTypes"),
      ("minItems", .int 1), ("uniqueItems", .bool true)]])]),
  ("format", typed "string"),
  ("contentMediaType", typed "string"),
  ("contentEncoding", typed "string"),
  ("if", anySchema),
  ("then", anySchema),
  ("else", anySchema),
  ("allOf", schemaList),
  ("anyOf", schemaList),
  ("oneOf", schemaList),
  ("not", anySchema)]

/-- The schema of schemas. -/
def metaSchema : Json := .object [
  ("definitions", metaDefinitions),
  ("type", Json.ofStrings ["object", "boolean"]),
  ("properties", metaProperties)]

/-- The first thing that is wrong with a schema. -/
def unusable? (schema : Json) : Option Cause :=
  match violations metaSchema schema with
  | v :: _ => some v.cause
  | [] => misuse? schema

def Violation.mismatch (v : Violation) : Mismatch := ⟨pointer v.place, v.cause.message⟩

instance builtIn : Engine where
  unusable? schema := (unusable? schema).map Cause.message
  mismatches schema v := (violations schema v).map Violation.mismatch

end SignedDocs.JsonSchema
