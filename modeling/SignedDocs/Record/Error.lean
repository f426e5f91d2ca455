import SignedDocs.Date
import SignedDocs.Json.Printer
import SignedDocs.Text.Quoted
import SignedDocs.Uuid

/-!
Why a value cannot be read as a record, and the words for it.
-/

namespace SignedDocs

/-- What stands in the place of a value. -/
inductive Found where
  | null
  | bool (b : Bool)
  | integer (n : Int)
  | real (text : String)
  | string (s : String)
  | sequence
  | map
deriving DecidableEq, Repr

def Found.ofJson : Json → Found
  | .null => .null
  | .bool b => .bool b
  | .number (.int n) => .integer n
  | .number (.real x) => .real (JsonNumber.layout.render x)
  | .string s => .string s
  | .array _ => .sequence
  | .object _ => .map

def Found.describe : Found → String
  | .null => "null"
  | .bool b => "boolean `" ++ toString b ++ "`"
  | .integer n => "integer `" ++ toString n ++ "`"
  | .real text => "floating point `" ++ text ++ "`"
  | .string s => "string " ++ Text.quoted s
  | .sequence => "sequence"
  | .map => "map"

inductive ReadError where
  | invalidType (found : Found) (expected : String)
  | invalidValue (found : Found) (expected : String)
  | invalidLength (length : Nat) (expected : String)
  | missingField (name : String)
  | unknownField (name : String) (known : List String)
  | unknownVariant (name : String) (known : List String)
  | noAlternative (choice : String)
  | uuid (unfit : Uuid.Unfit)
  | date (fault : Date.Fault)
deriving DecidableEq, Repr

/-- Names in backticks: two with "or" between them, more as a list. -/
def oneOf (names : List String) : String :=
  match names.map fun n => "`" ++ n ++ "`" with
  | [a] => a
  | [a, b] => a ++ " or " ++ b
  | quoted => "one of " ++ Text.join ", " quoted

def ReadError.message : ReadError → String
  | .invalidType found e => "invalid type: " ++ found.describe ++ ", expected " ++ e
  | .invalidValue found e => "invalid value: " ++ found.describe ++ ", expected " ++ e
  | .invalidLength n e => "invalid length " ++ toString n ++ ", expected " ++ e
  | .missingField n => "missing field `" ++ n ++ "`"
  | .unknownField n known => "unknown field `" ++ n ++ "`, expected " ++ oneOf known
  | .unknownVariant n known => "unknown variant `" ++ n ++ "`, expected " ++ oneOf known
  | .noAlternative choice => "data did not match any variant of untagged enum " ++ choice
  | .uuid unfit => unfit.message
  | .date fault => fault.message

end SignedDocs
