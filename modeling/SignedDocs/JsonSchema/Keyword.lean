import SignedDocs.JsonSchema.Violation

/-!
Keywords of a schema, read one level deep: the schemas inside a keyword stay values.

* A schema with a reference has no other keyword.
* `properties` beside `additionalProperties` (unless that is `true`) are one
  keyword, which stands where `additionalProperties` stands.
* A limit has to be a natural of 64 bits; `misuse?` finds the first one in a schema
  that is not, or a value in the place of a schema that is none.
-/

namespace SignedDocs.JsonSchema

/-- What holds for the properties that are not declared. -/
inductive Others where
  | forbidden
  | matching (schema : Json)

inductive Keyword where
  | reference (target : String)
  | types (types : List ValueType)
  | enum (values : List Json)
  | const (value : Json)
  | bound (bound : Bound) (limit : JsonNumber)
  | multipleOf (divisor : Binary64)
  | atLeast (part : Part) (limit : Nat)
  | atMost (part : Part) (limit : Nat)
  | required (names : List String)
  | properties (declared : List (String × Json))
  | closedProperties (declared : Option (List (String × Json))) (others : Others)
  | itemsAll (schema : Json)
  | itemsEach (schemas : List Json)
  | itemsAfter (count : Nat) (others : Others)
  | nothing
  | unique
  | contains (schema : Json)
  | propertyNames (schema : Json)
  | negation (schema : Json)
  | anyOf (schemas : List Json)
  | oneOf (schemas : List Json)
  | allOf (schemas : List Json)
  | condition (test : Json) (then_ else_ : Option Json)

/-- A natural of 64 bits. -/
def limit (v : Json) : Except Cause Nat :=
  match v with
  | .number n => match n.natural? with
    | some k => .ok k
    | none => .error (.notType v [.integer])
  | v => .error (.notType v [.integer])

def typesOf : Json → List ValueType
  | .string s => ValueType.all.filter fun t => t.word == s
  | .array items => ValueType.all.filter fun t =>
      items.any fun
        | .string s => t.word == s
        | _ => false
  | _ => []

def stringsOf : Json → List String
  | .array items => items.filterMap fun
      | .string s => some s
      | _ => none
  | _ => []

def itemsOf : Json → List Json
  | .array items => items
  | _ => []

def entriesOf : Json → List (String × Json)
  | .object entries => entries
  | _ => []

/-- Schemas that stand for a rule: objects and booleans. -/
def isSchema : Json → Bool
  | .object _ => true
  | .bool _ => true
  | _ => false

/-- Properties are left to `additionalProperties`. -/
def isClosed (schema : Table Json) : Bool :=
  match schema.get? "additionalProperties" with
  | some (.bool false) => true
  | some (.object _) => true
  | _ => false

def boundOf (b : Bound) : Json → Option Keyword
  | .number n => some (.bound b n)
  | _ => none

def divisorOf : Json → Option Keyword
  | .number n => some (.multipleOf n.toBinary64)
  | _ => none

def additionalProperties (schema : Table Json) : Json → Option Keyword
  | .bool false => some (.closedProperties ((schema.get? "properties").map entriesOf) .forbidden)
  | .object es =>
    some (.closedProperties ((schema.get? "properties").map entriesOf) (.matching (.object es)))
  | _ => none

/-- Beside `items: false` nothing is allowed at all. -/
def additionalItems (schema : Table Json) (v : Json) : Option Keyword :=
  match schema.get? "items", v with
  | some (.bool false), _ => some .nothing
  | some (.array items), .bool false => some (.itemsAfter items.length .forbidden)
  | some (.array items), .object es => some (.itemsAfter items.length (.matching (.object es)))
  | _, _ => none

def conditionOf (schema : Table Json) (test : Json) : Option Keyword :=
  match schema.get? "then", schema.get? "else" with
  | none, none => none
  | t, e => some (.condition test t e)

/-- The keyword of an entry of a schema without reference. -/
def Keyword.ofEntry (schema : Table Json) (name : String) (v : Json) :
    Except Cause (Option Keyword) :=
  match name with
  | "type" => .ok (some (.types (typesOf v)))
  | "enum" => .ok (some (.enum (itemsOf v)))
  | "const" => .ok (some (.const v))
  | "minimum" => .ok (boundOf .minimum v)
  | "maximum" => .ok (boundOf .maximum v)
  | "exclusiveMinimum" => .ok (boundOf .exclusiveMinimum v)
  | "exclusiveMaximum" => .ok (boundOf .exclusiveMaximum v)
  | "multipleOf" => .ok (divisorOf v)
  | "minLength" => do pure (some (.atLeast .character (← limit v)))
  | "maxLength" => do pure (some (.atMost .character (← limit v)))
  | "minItems" => do pure (some (.atLeast .item (← limit v)))
  | "maxItems" => do pure (some (.atMost .item (← limit v)))
  | "minProperties" => do pure (some (.atLeast .property (← limit v)))
  | "maxProperties" => do pure (some (.atMost .property (← limit v)))
  | "required" => .ok (some (.required (stringsOf v)))
  | "properties" => .ok (if isClosed schema then none else some (.properties (entriesOf v)))
  | "additionalProperties" => .ok (additionalProperties schema v)
  | "items" => .ok (match v with
    | .array schemas => some (.itemsEach schemas)
    | v => if isSchema v then some (.itemsAll v) else none)
  | "additionalItems" => .ok (additionalItems schema v)
  | "uniqueItems" => .ok (match v with
    | .bool true => some .unique
    | _ => none)
  | "contains" => .ok (some (.contains v))
  | "propertyNames" => .ok (some (.propertyNames v))
  | "not" => .ok (some (.negation v))
  | "anyOf" => .ok (some (.anyOf (itemsOf v)))
  | "oneOf" => .ok (some (.oneOf (itemsOf v)))
  | "allOf" => .ok (some (.allOf (itemsOf v)))
  | "if" => .ok (conditionOf schema v)
  | _ => .ok none

/-- Keywords of a schema object, in its order. -/
def keywords (schema : Table Json) : Except Cause (List Keyword) :=
  match schema.get? "$ref" with
  | some (.string target) => .ok [.reference target]
  | some _ => .ok []
  | none => do
    let found ← schema.entries.mapM fun e => Keyword.ofEntry schema e.1 e.2
    pure (found.filterMap id)

/-- Schemas inside a keyword, in their order. -/
def Keyword.subschemas : Keyword → List Json
  | .properties declared => declared.map Prod.snd
  | .closedProperties declared others =>
    (declared.getD []).map Prod.snd ++ match others with
      | .forbidden => []
      | .matching schema => [schema]
  | .itemsAll schema => [schema]
  | .itemsEach schemas => schemas
  | .itemsAfter _ (.matching schema) => [schema]
  | .contains schema => [schema]
  | .propertyNames schema => [schema]
  | .negation schema => [schema]
  | .anyOf schemas => schemas
  | .oneOf schemas => schemas
  | .allOf schemas => schemas
  | .condition test t e => test :: (t.toList ++ e.toList)
  | _ => []

/-! ## Schemas that cannot be applied -/

/-- The first value in a schema, nested less than `fuel` deep, that is no schema in the
place of one or no limit in the place of one. What a reference leads to is left out. -/
def misuseWithin : Nat → Json → Option Cause
  | 0, _ => none
  | _ + 1, .bool _ => none
  | fuel + 1, .object entries =>
    let schema := Table.ofList entries
    if (schema.get? "$ref").isSome then none
    else schema.entries.findSome? fun e =>
      match Keyword.ofEntry schema e.1 e.2 with
      | .error cause => some cause
      | .ok none => none
      | .ok (some k) => k.subschemas.findSome? (misuseWithin fuel)
  | _ + 1, v => some (.notType v [.boolean, .object])

def misuse? (schema : Json) : Option Cause := misuseWithin (schema.depth + 2) schema

end SignedDocs.JsonSchema
