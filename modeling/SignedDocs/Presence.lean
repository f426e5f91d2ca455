import SignedDocs.Record.Codec

/-!
Whether a field must, may or must not be present.
-/

namespace SignedDocs

inductive Presence where
  | required
  | optional
  | excluded
deriving DecidableEq, Repr

namespace Presence

def word : Presence → String
  | .required => "required"
  | .optional => "optional"
  | .excluded => "excluded"

def isRequired : Presence → Bool
  | .required => true
  | _ => false

def isExcluded : Presence → Bool
  | .excluded => true
  | _ => false

/-- Words that are read; "yes" is another word for "required". -/
def words : List (String × Presence) :=
  [("required", .required), ("yes", .required), ("optional", .optional), ("excluded", .excluded)]

def ofWord (s : String) : Except ReadError Presence :=
  match words.lookup s with
  | some p => .ok p
  | none => .error (.unknownVariant s (words.map Prod.fst))

/-- A word, or an object with null under the word. -/
def read : Json → Except ReadError Presence
  | .string s => ofWord s
  | .object entries =>
    match (Table.ofList entries).entries with
    | [(s, v)] => do
      let p ← ofWord s
      match v with
      | .null => pure p
      | v => Codec.mismatch v "unit"
    | _ => .error (.invalidValue .map "map with a single key")
  | v => Codec.mismatch v "string or map"

def codec : Codec Presence := ⟨read, fun p => .string p.word⟩

end Presence

end SignedDocs
