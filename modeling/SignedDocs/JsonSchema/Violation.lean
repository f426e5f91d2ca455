import SignedDocs.Json.Printer

/-!
Violations: where an instance does not match a schema, which rule it breaks, and
the words for it.
-/

namespace SignedDocs.JsonSchema

/-- Types of values, in the order in which messages list them. -/
inductive ValueType where
  | array
  | boolean
  | integer
  | null
  | number
  | object
  | string
deriving DecidableEq, Repr

namespace ValueType

def all : List ValueType := [.array, .boolean, .integer, .null, .number, .object, .string]

def word : ValueType → String
  | .array => "array"
  | .boolean => "boolean"
  | .integer => "integer"
  | .null => "null"
  | .number => "number"
  | .object => "object"
  | .string => "string"

/-- A number without fraction is an integer too. -/
def admits : ValueType → Json → Bool
  | .array, .array _ => true
  | .boolean, .bool _ => true
  | .integer, .number n => n.isIntegral
  | .null, .null => true
  | .number, .number _ => true
  | .object, .object _ => true
  | .string, .string _ => true
  | _, _ => false

end ValueType

/-- The counted parts of a value. -/
inductive Part where
  | character
  | item
  | property
deriving DecidableEq, Repr

def Part.count (part : Part) (n : Nat) : String :=
  toString n ++ " " ++ match part with
    | .character => if n = 1 then "character" else "characters"
    | .item => if n = 1 then "item" else "items"
    | .property => if n = 1 then "property" else "properties"

/-- Bounds of a number. -/
inductive Bound where
  | minimum
  | maximum
  | exclusiveMinimum
  | exclusiveMaximum
deriving DecidableEq, Repr

/-- What a number beyond the bound is called. -/
def Bound.breach : Bound → String
  | .minimum => "less than the minimum of "
  | .maximum => "greater than the maximum of "
  | .exclusiveMinimum => "less than or equal to the minimum of "
  | .exclusiveMaximum => "greater than or equal to the maximum of "

/-- The broken rule. -/
inductive Cause where
  | notType (instance_ : Json) (types : List ValueType)
  | notEnum (instance_ : Json) (values : List Json)
  | notConst (value : Json)
  | beyond (instance_ : Json) (bound : Bound) (limit : JsonNumber)
  | notMultiple (instance_ : Json) (divisor : Binary64)
  | tooFew (instance_ : Json) (part : Part) (limit : Nat)
  | tooMany (instance_ : Json) (part : Part) (limit : Nat)
  | missing (property : String)
  | unexpectedProperties (names : List String)
  | unexpectedItems (items : List Json)
  | notUnique (instance_ : Json)
  | noneContained (instance_ : Json)
  | negated (schema instance_ : Json)
  | noneOf (instance_ : Json) (keyword : String)
  | severalOf (instance_ : Json)
  | falseSchema (instance_ : Json)
  | danglingReference (reference : String)
deriving Inhabited

/-- Divisors have no power of ten and no empty fraction. -/
def divisorLayout : Layout where
  plain _ := true
  pointZero := false
  tie := .upward

def were (count : Nat) : String := if count = 1 then " was unexpected)" else " were unexpected)"

def typeWords (types : List ValueType) : String :=
  Text.join ", " (types.map fun t => "\"" ++ t.word ++ "\"")

def Cause.message : Cause → String
  | .notType v [t] => v.render ++ " is not of type " ++ typeWords [t]
  | .notType v ts => v.render ++ " is not of types " ++ typeWords (ValueType.all.filter (· ∈ ts))
  | .notEnum v values => v.render ++ " is not one of " ++ (Json.array values).render
  | .notConst value => value.render ++ " was expected"
  | .beyond v bound limit => v.render ++ " is " ++ bound.breach ++ limit.render
  | .notMultiple v m => v.render ++ " is not a multiple of " ++ divisorLayout.render m
  | .tooFew v .character n => v.render ++ " is shorter than " ++ Part.character.count n
  | .tooFew v part n => v.render ++ " has less than " ++ part.count n
  | .tooMany v .character n => v.render ++ " is longer than " ++ Part.character.count n
  | .tooMany v part n => v.render ++ " has more than " ++ part.count n
  | .missing name => Json.renderString name ++ " is a required property"
  | .unexpectedProperties names =>
    "Additional properties are not allowed (" ++
      Text.join ", " (names.map fun n => "'" ++ n ++ "'") ++ were names.length
  | .unexpectedItems items =>
    "Additional items are not allowed (" ++ Text.join ", " (items.map Json.render) ++
      were items.length
  | .notUnique v => v.render ++ " has non-unique elements"
  | .noneContained v => "None of " ++ v.render ++ " are valid under the given schema"
  | .negated schema v => schema.render ++ " is not allowed for " ++ v.render
  | .noneOf v keyword =>
    v.render ++ " is not valid under any of the schemas listed in the '" ++ keyword ++ "' keyword"
  | .severalOf v =>
    v.render ++ " is valid under more than one of the schemas listed in the 'oneOf' keyword"
  | .falseSchema v => "False schema does not allow " ++ v.render
  | .danglingReference r => "Invalid reference: " ++ r

/-- A broken rule, at the place reached by property names and indices. -/
structure Violation where
  place : List String
  cause : Cause
deriving Inhabited

/-- A step of a pointer; tilde and slash are escaped. -/
def escapeStep (step : String) : String :=
  String.ofList <| step.toList.flatMap fun c =>
    if c = '~' then ['~', '0'] else if c = '/' then ['~', '1'] else [c]

/-- The pointer to a place. -/
def pointer (place : List String) : String := String.join (place.map fun s => "/" ++ escapeStep s)

end SignedDocs.JsonSchema
