import SignedDocs.JsonSchema.Keyword
import SignedDocs.Text.Percent

/-!
Validation of an instance against a schema.

* `Keyword.check`: the violations of one keyword, given those of the schemas in it.
* `violations`: all violations, in the order of the keywords.
* A reference points into the root schema. Chains of references end because each
  step spends fuel; `stepsFor` bounds the steps of schemas that do not refer to
  themselves at the same place of an instance.
-/

namespace SignedDocs.JsonSchema

/-! ## Equality -/

mutual

/-- Equal values: numbers as binary64 numbers, entries of objects one by one. -/
def same : Json → Json → Bool
  | .null, .null => true
  | .bool a, .bool b => a == b
  | .number a, .number b => a.toBinary64.units == b.toBinary64.units
  | .string a, .string b => a == b
  | .array as, .array bs => sameItems as bs
  | .object as, .object bs => sameEntries as bs
  | _, _ => false

def sameItems : List Json → List Json → Bool
  | [], [] => true
  | a :: as, b :: bs => same a b && sameItems as bs
  | _, _ => false

def sameEntries : List (String × Json) → List (String × Json) → Bool
  | [], [] => true
  | (k, a) :: as, (l, b) :: bs => k == l && same a b && sameEntries as bs
  | _, _ => false

end

/-- Numbers are the constant when they differ by less than the distance from one to
its upper neighbour. -/
def isConst (value : Json) (instance_ : Json) : Bool :=
  match value, instance_ with
  | .number a, .number b =>
    match a.toBinary64.sub b.toBinary64 with
    | some d => Binary64.belowEpsilon d.magnitude.1 d.magnitude.2
    | none => false
  | value, instance_ => same value instance_

/-- No two items are equal. -/
def allDistinct : List Json → Bool
  | [] => true
  | v :: vs => !(vs.any (same v)) && allDistinct vs

/-! ## Numbers -/

/-- The number lies beyond the bound. -/
def Bound.isBroken (bound : Bound) (n limit : JsonNumber) : Bool :=
  match bound, n.order limit with
  | .minimum, .lt => true
  | .maximum, .gt => true
  | .exclusiveMinimum, .lt => true
  | .exclusiveMinimum, .eq => true
  | .exclusiveMaximum, .gt => true
  | .exclusiveMaximum, .eq => true
  | _, _ => false

/-- The quotient of two decimals is an integer. -/
def dividesDecimal (x m : Decimal) : Bool :=
  let e := x.exponent - m.exponent
  x.digits * Nat.pow 10 e.toNat % (m.digits * Nat.pow 10 (-e).toNat) == 0

/-- Fraction of a number less than the distance from one to its upper neighbour; a
negative number passes. -/
def nearlyIntegral (q : Binary64) : Bool :=
  let (num, den) := q.magnitude
  q.negative || Binary64.belowEpsilon (num % den) den

/-- Multiples of an integral divisor are exact; those of another one are judged by
the rounded quotient, or by their decimals when it is too large. -/
def isMultiple (x m : Binary64) : Bool :=
  if m.isIntegral then x.isIntegral && x.units % m.units == 0
  else match x.div m with
    | some q => nearlyIntegral q
    | none => dividesDecimal (x.shortest .toEven) (m.shortest .toEven)

/-! ## Keywords -/

/-- Parts of a value that a limit counts. -/
def Part.size? : Part → Json → Option Nat
  | .character, .string s => some s.length
  | .item, .array items => some items.length
  | .property, .object entries => some entries.length
  | _, _ => none

/-- Violations of a schema by an instance at a place. -/
abbrev Check := Json → List String → Json → List Violation

/-- Violations by the items, the first of which has the index `i`. -/
def checkItems (sub : Check) (schema : Json) (place : List String) :
    Nat → List Json → List Violation
  | _, [] => []
  | i, v :: vs => sub schema (place ++ [toString i]) v ++ checkItems sub schema place (i + 1) vs

/-- Violations by items that have a schema each. -/
def checkEach (sub : Check) (place : List String) : Nat → List Json → List Json → List Violation
  | i, s :: ss, v :: vs => sub s (place ++ [toString i]) v ++ checkEach sub place (i + 1) ss vs
  | _, _, _ => []

def checkDeclared (sub : Check) (place : List String) (declared : List (String × Json))
    (entries : List (String × Json)) : List Violation :=
  declared.flatMap fun d =>
    match entries.lookup d.1 with
    | some v => sub d.2 (place ++ [d.1]) v
    | none => []

/-- Declared properties and the others, in the order of the instance; unexpected
ones in one violation at the end. -/
def checkClosed (sub : Check) (place : List String) (declared : Option (List (String × Json)))
    (others : Others) (entries : List (String × Json)) : List Violation :=
  match declared, others with
  | none, .forbidden =>
    match entries with
    | [] => []
    | e :: _ => [⟨place, .falseSchema e.2⟩]
  | none, .matching schema => entries.flatMap fun e => sub schema (place ++ [e.1]) e.2
  | some declared, .matching schema =>
    entries.flatMap fun e => sub ((declared.lookup e.1).getD schema) (place ++ [e.1]) e.2
  | some declared, .forbidden =>
    let unexpected := entries.filter fun e => (declared.lookup e.1).isNone
    (entries.flatMap fun e =>
      match declared.lookup e.1 with
      | some s => sub s (place ++ [e.1]) e.2
      | none => []) ++
    (if unexpected.isEmpty then [] else [⟨place, .unexpectedProperties (unexpected.map Prod.fst)⟩])

/-- A violation at `place` if the rule is broken. -/
def demand (ok : Bool) (place : List String) (cause : Cause) : List Violation :=
  if ok then [] else [⟨place, cause⟩]

/-- Schemas that the instance matches. -/
def matching (sub : Check) (schemas : List Json) (place : List String) (v : Json) : Nat :=
  (schemas.filter fun s => (sub s place v).isEmpty).length

/-- Violations of a keyword; `sub` gives those of the schemas in it and `follow`
those of a reference. -/
def Keyword.check (sub : Check) (follow : String → List String → Json → List Violation)
    (place : List String) (v : Json) : Keyword → List Violation
  | .reference target => follow target place v
  | .types ts => demand (ts.any (·.admits v)) place (.notType v ts)
  | .enum values => demand (values.any (same v)) place (.notEnum v values)
  | .const value => demand (isConst value v) place (.notConst value)
  | .bound b limit =>
    match v with
    | .number n => demand (!b.isBroken n limit) place (.beyond v b limit)
    | _ => []
  | .multipleOf m =>
    match v with
    | .number n => demand (isMultiple n.toBinary64 m) place (.notMultiple v m)
    | _ => []
  | .atLeast part limit =>
    match part.size? v with
    | some n => demand (decide (limit ≤ n)) place (.tooFew v part limit)
    | none => []
  | .atMost part limit =>
    match part.size? v with
    | some n => demand (decide (n ≤ limit)) place (.tooMany v part limit)
    | none => []
  | .required names =>
    match v with
    | .object entries =>
      names.flatMap fun n => demand (entries.lookup n).isSome place (.missing n)
    | _ => []
  | .properties declared => checkDeclared sub place declared (entriesOf v)
  | .closedProperties declared others => checkClosed sub place declared others (entriesOf v)
  | .itemsAll schema => checkItems sub schema place 0 (itemsOf v)
  | .itemsEach schemas => checkEach sub place 0 schemas (itemsOf v)
  | .itemsAfter count (.matching schema) =>
    checkItems sub schema place count ((itemsOf v).drop count)
  | .itemsAfter count .forbidden =>
    let rest := (itemsOf v).drop count
    demand rest.isEmpty place (.unexpectedItems rest)
  | .nothing => [⟨place, .falseSchema v⟩]
  | .unique => demand (allDistinct (itemsOf v)) place (.notUnique v)
  | .contains schema =>
    match v with
    | .array items => demand (items.any fun i => (sub schema place i).isEmpty) place (.noneContained v)
    | _ => []
  | .propertyNames (.bool false) => demand (entriesOf v).isEmpty place (.falseSchema v)
  | .propertyNames schema =>
    (entriesOf v).flatMap fun e => (sub schema place (.string e.1)).map fun x => ⟨place, x.cause⟩
  | .negation schema => demand (!(sub schema place v).isEmpty) place (.negated schema v)
  | .anyOf schemas => demand (matching sub schemas place v != 0) place (.noneOf v "anyOf")
  | .oneOf schemas =>
    match matching sub schemas place v with
    | 0 => [⟨place, .noneOf v "oneOf"⟩]
    | 1 => []
    | _ => [⟨place, .severalOf v⟩]
  | .allOf schemas => schemas.flatMap fun s => sub s place v
  | .condition test then_ else_ =>
    match (if (sub test place v).isEmpty then then_ else else_) with
    | some schema => sub schema place v
    | none => []

/-! ## References -/

/-- A step of a pointer as it was before escaping. -/
def unescapeStep : List Char → List Char
  | '~' :: '0' :: cs => '~' :: unescapeStep cs
  | '~' :: '1' :: cs => '/' :: unescapeStep cs
  | c :: cs => c :: unescapeStep cs
  | [] => []

/-- An index without zeros in front of other digits. -/
def index? (step : List Char) : Option Nat :=
  match step with
  | '0' :: _ :: _ => none
  | ds => if !ds.isEmpty && ds.all Char.isDigit then some (Nat.ofDigitChars 10 ds 0) else none

/-- The value that a pointer leads to. -/
def walk : List (List Char) → Json → Option Json
  | [], v => some v
  | step :: steps, .object entries =>
    ((Table.ofList entries).get? (String.ofList (unescapeStep step))).bind (walk steps)
  | step :: steps, .array items =>
    (index? (unescapeStep step)).bind fun i => items[i]?.bind (walk steps)
  | _, _ => none

/-- The value in the root that a fragment names; the empty one is the root. -/
def ofFragment (root : Json) (fragment : String) : Option Json :=
  match fragment.toList with
  | [] => some root
  | '/' :: rest => walk (rest.splitOn '/') root
  | _ => none

/-- The value in the root that a reference names. -/
def target? (root : Json) (reference : String) : Option Json :=
  match reference.toList with
  | [] => some root
  | '#' :: fragment => (Text.percentDecode (String.ofList fragment)).bind (ofFragment root)
  | _ => none

/-- Stands before references in messages. -/
def referenceBase : String := "json-schema:///"

/-- Violations by every instance when a reference cannot be followed. -/
def broken (cause : Cause) : List Violation := [⟨[], cause⟩]

/-! ## Violations -/

/-- Violations of a schema, with `fuel` steps into schemas left. -/
def violationsWithin (root : Json) : Nat → Check
  | 0, _, _, _ => []
  | fuel + 1, schema, place, v =>
    match schema with
    | .bool false => [⟨place, .falseSchema v⟩]
    | .object entries =>
      match keywords (Table.ofList entries) with
      | .error cause => broken cause
      | .ok ks => ks.flatMap <| Keyword.check (violationsWithin root fuel)
          (fun reference place v =>
            match target? root reference with
            | none => broken (.danglingReference (referenceBase ++ Text.percentEncode reference))
            | some schema =>
              match misuse? schema with
              | some cause => broken cause
              | none => violationsWithin root fuel schema place v)
          place v
    | _ => []

/-- At each place of an instance every value of the root is a schema at most once;
names of properties lie one step below the instance. -/
def stepsFor (root instance_ : Json) : Nat := root.nodes * (instance_.depth + 2) + 1

/-- Violations of a schema by an instance. -/
def violations (root instance_ : Json) : List Violation :=
  violationsWithin root (stepsFor root instance_) root [] instance_

end SignedDocs.JsonSchema
