import SignedDocs.Number.Shortest
import SignedDocs.Table

/-!
JSON values.

* Numbers are integers of 64 bits, signed or not, or binary64 numbers.
* An object is a list of entries. As a table (`fields`) a repeated key keeps its
  first place and its last value.
-/

namespace SignedDocs

/-- A number: exact if it was written as an integer of 64 bits. -/
inductive JsonNumber where
  | int (n : Int)
  | real (x : Binary64)
deriving DecidableEq, Repr

inductive Json where
  | null
  | bool (b : Bool)
  | number (n : JsonNumber)
  | string (s : String)
  | array (items : List Json)
  | object (entries : List (String × Json))
deriving Inhabited

namespace JsonNumber

/-- The nearest binary64 number; an integer of 64 bits is always within range. -/
def toBinary64 : JsonNumber → Binary64
  | .int n => (Binary64.ofInt n).getD (Binary64.zero false)
  | .real x => x

/-- A number without a fraction. -/
def isIntegral : JsonNumber → Bool
  | .int _ => true
  | .real x => x.isIntegral

/-- A natural below `2 ^ 64`, written as an integer. -/
def natural? : JsonNumber → Option Nat
  | .int n => if 0 ≤ n then some n.toNat else none
  | .real _ => none

/-- Order of two numbers by their exact values. -/
def order : JsonNumber → JsonNumber → Ordering
  | .int m, .int n => compare m n
  | .int m, .real y => Binary64.compareInt m y
  | .real x, .int n => (Binary64.compareInt n x).swap
  | .real x, .real y => Binary64.compareExact x y

end JsonNumber

namespace Json

def int (n : Int) : Json := .number (.int n)

/-- The value as a table, if it is an object. -/
def fields? : Json → Option (Table Json)
  | .object entries => some (Table.ofList entries)
  | _ => none

/-- The object with the entries of a table. -/
def ofTable (t : Table Json) : Json := .object t.entries

def ofStrings (names : List String) : Json := .array (names.map .string)

def ofOption {α : Type} (f : α → Json) : Option α → Json
  | some a => f a
  | none => .null

/-- The value under a key of an object; the last of repeats. -/
def get? (v : Json) (key : String) : Option Json := v.fields?.bind (·.get? key)

/-! ## Size -/

mutual

/-- Number of values in a value, itself included. -/
def nodes : Json → Nat
  | .array items => nodesOfItems items + 1
  | .object entries => nodesOfEntries entries + 1
  | _ => 1

def nodesOfItems : List Json → Nat
  | [] => 0
  | v :: vs => nodes v + nodesOfItems vs

def nodesOfEntries : List (String × Json) → Nat
  | [] => 0
  | (_, v) :: es => nodes v + nodesOfEntries es

end

mutual

/-- Nesting of containers. -/
def depth : Json → Nat
  | .array items => depthOfItems items + 1
  | .object entries => depthOfEntries entries + 1
  | _ => 0

def depthOfItems : List Json → Nat
  | [] => 0
  | v :: vs => max (depth v) (depthOfItems vs)

def depthOfEntries : List (String × Json) → Nat
  | [] => 0
  | (_, v) :: es => max (depth v) (depthOfEntries es)

end

/-! ## Words -/

/-- What a value is, with an article. -/
def kind : Json → String
  | .null => "null"
  | .bool _ => "a boolean"
  | .number _ => "a number"
  | .string _ => "a string"
  | .array _ => "an array"
  | .object _ => "an object"

end Json

end SignedDocs
