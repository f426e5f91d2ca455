import SignedDocs.Report

/-!
Base types: names for identifiers of version 4, one identifier for each.

`ofTexts`: the entries that can be kept, and an error for each other one; of two
entries with the same identifier the first is kept.
-/

namespace SignedDocs

/-- Identifiers under their names, and names under their identifiers. -/
structure BaseTypes where
  ids : Table Uuid
  owners : List (Uuid × String)

namespace BaseTypes

def empty : BaseTypes := ⟨Table.empty, []⟩

instance : Inhabited BaseTypes := ⟨empty⟩

/-- The identifier of a name. -/
def id? (b : BaseTypes) (name : String) : Option Uuid := b.ids.get? name

/-- The name of an identifier. -/
def name? (b : BaseTypes) (id : Uuid) : Option String := b.owners.lookup id

def names (b : BaseTypes) : List String := b.ids.keys

def size (b : BaseTypes) : Nat := b.ids.size

def isEmpty (b : BaseTypes) : Bool := b.ids.isEmpty

/-- The section of the specification that declares base types. -/
def sectionName : String := "base_types"

/-- One base type more. -/
def insert (b : BaseTypes) (name : String) (id : Uuid) : BaseTypes :=
  ⟨b.ids.insert name id, (id, name) :: b.owners⟩

theorem id?_insert (b : BaseTypes) (name : String) (id : Uuid) (other : String) :
    (b.insert name id).id? other = if other = name then some id else b.id? other :=
  Table.get?_insert b.ids name id other

theorem name?_insert (b : BaseTypes) (name : String) (id other : Uuid) :
    (b.insert name id).name? other = if other = id then some name else b.name? other :=
  Table.lookup_cons other (id, name) b.owners

/-- One entry more, or an error. -/
def add (b : BaseTypes) (issues : List Issue) (name text : String) : BaseTypes × List Issue :=
  match Uuid.readVersion4 text with
  | .error unfit => (b, issues ++ [⟨[sectionName, name], .unfitId unfit⟩])
  | .ok id =>
    match b.name? id with
    | some owner => (b, issues ++ [⟨[sectionName, name], .reusedId id owner⟩])
    | none => (b.insert name id, issues)

/-- The base types of some texts, with the errors. -/
def ofTexts (texts : Table String) : BaseTypes × List Issue :=
  texts.entries.foldl (fun acc e => acc.1.add acc.2 e.1 e.2) (empty, [])

end BaseTypes

end SignedDocs
