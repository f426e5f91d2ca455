import SignedDocs.Record.Error

/-!
Codecs: how values of a type are read from JSON and written back.

* Scalars, lists, tables, optional values (null is absence) and texts that may be
  given alone or in a list.
* `Codec.record`: a record is an object of its fields, or an array of them in
  their order. All entries of an object are read in the order they stand in before
  a field is found missing.
-/

namespace SignedDocs

structure Codec (α : Type) where
  read : Json → Except ReadError α
  write : α → Json

namespace Codec

/-- The value is something else than expected. -/
def mismatch {α : Type} (v : Json) (expected : String) : Except ReadError α :=
  .error (.invalidType (Found.ofJson v) expected)

/-! ## Scalars -/

/-- Any value, as it is. -/
def any : Codec Json := ⟨.ok, id⟩

def text : Codec String where
  read
    | .string s => .ok s
    | v => mismatch v "a string"
  write := .string

def flag : Codec Bool where
  read
    | .bool b => .ok b
    | v => mismatch v "a boolean"
  write := .bool

def natural32 : Codec Natural32 where
  read
    | .number (.int n) =>
      if h : n.toNat < Nat.pow 2 32 then
        if 0 ≤ n then .ok ⟨n.toNat, h⟩ else .error (.invalidValue (.integer n) "u32")
      else .error (.invalidValue (.integer n) "u32")
    | v => mismatch v "u32"
  write n := .int (n.val : Nat)

def date : Codec Date where
  read
    | .string s => (Date.parse s).mapError .date
    | v => mismatch v "a formatted date string"
  write d := .string d.render

def uuid : Codec Uuid where
  read
    | .string s => (Uuid.read s).mapError .uuid
    | v => mismatch v "a string"
  write id := .string id.hyphenated

/-! ## Containers -/

def list {α : Type} (c : Codec α) : Codec (List α) where
  read
    | .array items => items.mapM c.read
    | v => mismatch v "a sequence"
  write as := .array (as.map c.write)

/-- Values under the keys of an object, read in its order. -/
def table {α : Type} (c : Codec α) : Codec (Table α) where
  read
    | .object entries => do
      let read ← (Table.ofList entries).entries.mapM fun e => (c.read e.2).map fun a => (e.1, a)
      pure (Table.ofList read)
    | v => mismatch v "a map"
  write t := .object (t.entries.map fun e => (e.1, c.write e.2))

/-- Null stands for absence. -/
def optional {α : Type} (c : Codec α) : Codec (Option α) where
  read
    | .null => .ok none
    | v => (c.read v).map some
  write
    | none => .null
    | some a => c.write a

/-- The texts of a list of texts. -/
def texts? (items : List Json) : Option (List String) :=
  items.mapM fun
    | .string s => some s
    | _ => none

/-- Texts: one alone, or a list of them; null is the empty list. -/
def textOrList : Codec (List String) where
  read
    | .null => .ok []
    | .string s => .ok [s]
    | .array items =>
      match texts? items with
      | some ss => .ok ss
      | none => .error (.noAlternative "OneOrMany")
    | _ => .error (.noAlternative "OneOrMany")
  write ss := .array (ss.map .string)

end Codec

/-! ## Records -/

/-- Fields in their order: a name, a codec, and the value when the field is absent
(a field without one has to be present). -/
inductive Fields : Type → Type 1 where
  | nil : Fields Unit
  | cons {α β : Type} (name : String) (codec : Codec α) (absent : Option α) (rest : Fields β) :
      Fields (α × β)

namespace Fields

/-- A field that has to be present, before others. -/
def required {α β : Type} (name : String) (codec : Codec α) (rest : Fields β) : Fields (α × β) :=
  cons name codec none rest

/-- A field that may be left out, before others. -/
def defaulted {α β : Type} (name : String) (codec : Codec α) (value : α) (rest : Fields β) :
    Fields (α × β) :=
  cons name codec (some value) rest

def names : {α : Type} → Fields α → List String
  | _, nil => []
  | _, cons name _ _ rest => name :: rest.names

/-- The value of an entry can be read as the field of its key. -/
def check (known : List String) (e : String × Json) : {α : Type} → Fields α → Except ReadError Unit
  | _, nil => .error (.unknownField e.1 known)
  | _, cons name codec _ rest =>
    if e.1 = name then (codec.read e.2).map fun _ => () else rest.check known e

/-- The fields of an object. -/
def ofTable (t : Table Json) : {α : Type} → Fields α → Except ReadError α
  | _, nil => .ok ()
  | _, cons name codec absent rest => do
    let a ← match t.get? name, absent with
      | some v, _ => codec.read v
      | none, some a => .ok a
      | none, none => .error (.missingField name)
    let b ← rest.ofTable t
    pure (a, b)

/-- The fields of an array, the first of which has the index `i`. -/
def ofItems (expected : String) (i : Nat) (items : List Json) :
    {α : Type} → Fields α → Except ReadError α
  | _, nil => .ok ()
  | _, cons _ codec absent rest => do
    let a ← match items, absent with
      | v :: _, _ => codec.read v
      | [], some a => .ok a
      | [], none => .error (.invalidLength i expected)
    let b ← rest.ofItems expected (i + 1) items.tail
    pure (a, b)

def write : {α : Type} → Fields α → α → List (String × Json)
  | _, nil, _ => []
  | _, cons name codec _ rest, (a, b) => (name, codec.write a) :: rest.write b

end Fields

namespace Codec

/-- What an array is expected to be. -/
def withElements (name : String) (count : Nat) : String :=
  "struct " ++ name ++ " with " ++ toString count ++ (if count = 1 then " element" else " elements")

/-- Fields of a value, from an object or an array. -/
def readFields {α : Type} (name : String) (fields : Fields α) : Json → Except ReadError α
  | .object entries => do
    let t := Table.ofList entries
    t.entries.forM fun e => fields.check fields.names e
    fields.ofTable t
  | .array items => do
    let a ← fields.ofItems (withElements name fields.names.length) 0 items
    if fields.names.length < items.length then
      .error (.invalidLength items.length "fewer elements in array")
    else pure a
  | v => mismatch v ("struct " ++ name)

/-- A record of the given name, made of its fields. -/
def record {α β : Type} (name : String) (fields : Fields β) (make : β → α) (parts : α → β) :
    Codec α where
  read v := (readFields name fields v).map make
  write a := .object (fields.write (parts a))

end Codec

end SignedDocs
