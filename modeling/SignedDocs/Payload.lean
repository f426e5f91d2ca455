import SignedDocs.JsonSchema.Engine
import SignedDocs.Record.Codec

/-!
Payloads of documents and their examples.

`Payload.faults`: what is wrong with the examples. They need a schema; one that is
given by its address is not fetched and lets every example pass. One that stands in the payload
is applied by the engine at hand.
-/

namespace SignedDocs

/-- A schema by its address, or the schema itself. -/
inductive PayloadSchema where
  | address (url : String)
  | inline (schema : Table Json)

namespace PayloadSchema

def read : Json → Except ReadError PayloadSchema
  | .string url => .ok (.address url)
  | .object entries => .ok (.inline (Table.ofList entries))
  | _ => .error (.noAlternative "PayloadSchema")

def write : PayloadSchema → Json
  | .address url => .string url
  | .inline schema => Json.ofTable schema

def codec : Codec PayloadSchema := ⟨read, write⟩

end PayloadSchema

structure PayloadExample where
  title : String
  description : String
  value : Json

namespace PayloadExample

def fields : Fields (String × String × Json × Unit) :=
  .required "title" .text <| .required "description" .text <| .required "example" .any .nil

def codec : Codec PayloadExample :=
  .record "PayloadExample" fields (fun (t, d, v, _) => ⟨t, d, v⟩)
    (fun e => (e.title, e.description, e.value, ()))

end PayloadExample

/-- A payload; one that is nil is always null. -/
structure Payload where
  description : String
  isNil : Bool
  schema : Option PayloadSchema
  examples : List PayloadExample

namespace Payload

def fields : Fields (String × Bool × Option PayloadSchema × List PayloadExample × Unit) :=
  .required "description" .text <|
  .defaulted "nil" .flag false <|
  .defaulted "schema" (.optional PayloadSchema.codec) none <|
  .defaulted "examples" (.list PayloadExample.codec) [] .nil

def codec : Codec Payload :=
  .record "Payload" fields (fun (d, n, s, e, _) => ⟨d, n, s, e⟩)
    (fun p => (p.description, p.isNil, p.schema, p.examples, ()))

end Payload

/-! ## Examples -/

/-- What is wrong with the examples of a payload. -/
inductive ExampleFault where
  | noSchema
  | unusableSchema (reason : String)
  | mismatch (title : String) (mismatch : JsonSchema.Mismatch)

def ExampleFault.message : ExampleFault → String
  | .noSchema => "payload has examples but no schema to validate them"
  | .unusableSchema reason => "payload schema is not a valid JSON schema: " ++ reason
  | .mismatch title m =>
    "example `" ++ title ++ "` does not match the schema at `" ++ m.pointer ++ "`: " ++ m.reason

namespace Payload

variable [JsonSchema.Engine]

/-- Where the examples do not match a schema, in their order. -/
def mismatches (schema : Json) (examples : List PayloadExample) : List ExampleFault :=
  examples.flatMap fun e => (JsonSchema.Engine.mismatches schema e.value).map (.mismatch e.title)

def faults (p : Payload) : List ExampleFault :=
  if p.examples.isEmpty then []
  else match p.schema with
    | none => [.noSchema]
    | some (.address _) => []
    | some (.inline schema) =>
      let schema := Json.ofTable schema
      match JsonSchema.Engine.unusable? schema with
      | some reason => [.unusableSchema reason]
      | none => mismatches schema p.examples

end Payload

end SignedDocs
