import SignedDocs.Table

/-!
Sets of named fields in a canonical order.

* `ofTable`: records become fields that carry their names and their owner.
* `names`: the preferred names that are fields, each once, then the other fields
  in the order of their declaration.
* `all`: the fields in that order.
-/

namespace SignedDocs

universe u v

/-- A record with its name, and the document that owns it if it is not global. -/
structure Scoped (α : Type u) where
  name : String
  owner : Option String
  record : α
deriving DecidableEq, Repr

def Scoped.map {α : Type u} {β : Type v} (f : α → β) (s : Scoped α) : Scoped β :=
  ⟨s.name, s.owner, f s.record⟩

/-- Fields under their names, and the names that come first. -/
structure FieldSet (α : Type u) where
  fields : Table (Scoped α)
  preferred : List String

namespace FieldSet

variable {α : Type u} {β : Type v}

def empty : FieldSet α := ⟨Table.empty, []⟩

instance : Inhabited (FieldSet α) := ⟨empty⟩

/-- Records as fields of an owner: each is given its name and the owner. -/
def ofTable (records : Table α) (preferred : List String) (owner : Option String) : FieldSet α :=
  ⟨records.mapValues fun name r => ⟨name, owner, r⟩, preferred⟩

def contains (fs : FieldSet α) (name : String) : Bool := fs.fields.contains name

def get? (fs : FieldSet α) (name : String) : Option (Scoped α) := fs.fields.get? name

/-- Names of the fields in canonical order. -/
def names (fs : FieldSet α) : List String :=
  (fs.preferred.filter fs.contains).eraseDups ++
    fs.fields.keys.filter fun name => !fs.preferred.contains name

/-- The fields in canonical order. -/
def all (fs : FieldSet α) : List (Scoped α) := fs.names.filterMap fs.get?

def size (fs : FieldSet α) : Nat := fs.fields.size

def isEmpty (fs : FieldSet α) : Bool := fs.fields.isEmpty

/-- The same fields with other records. -/
def map (fs : FieldSet α) (f : α → β) : FieldSet β :=
  ⟨fs.fields.mapValues fun _ => Scoped.map f, fs.preferred⟩

/-- The records as they were declared. -/
def declared (fs : FieldSet α) : Table α := fs.fields.mapValues fun _ h => h.record

/-! ## Members -/

theorem keys_declared (fs : FieldSet α) : fs.declared.keys = fs.fields.keys :=
  Table.keys_mapValues fs.fields _

theorem get?_declared (fs : FieldSet α) (name : String) :
    fs.declared.get? name = (fs.get? name).map Scoped.record :=
  Table.get?_mapValues fs.fields _ name

theorem contains_iff {fs : FieldSet α} {name : String} :
    fs.contains name = true ↔ name ∈ fs.declared.keys := by
  rw [keys_declared]
  exact Table.contains_iff

/-- A record belongs to a field. -/
theorem get?_declared_eq_some_iff {fs : FieldSet α} {name : String} {r : α} :
    fs.declared.get? name = some r ↔ ∃ h, fs.get? name = some h ∧ h.record = r := by
  rw [get?_declared, Option.map_eq_some_iff]

/-- No field is lost in the canonical order, and nothing else is in it. -/
theorem mem_names {fs : FieldSet α} {name : String} :
    name ∈ fs.names ↔ name ∈ fs.declared.keys := by
  unfold names
  rw [List.mem_append, List.mem_eraseDups, List.mem_filter, List.mem_filter, contains_iff,
    keys_declared]
  constructor
  · rintro (⟨-, h⟩ | ⟨h, -⟩)
    · exact h
    · exact h
  · intro h
    by_cases hp : name ∈ fs.preferred
    · exact Or.inl ⟨hp, h⟩
    · exact Or.inr ⟨h, by simpa using hp⟩

theorem exists_get?_of_mem_names {fs : FieldSet α} {name : String} (h : name ∈ fs.names) :
    ∃ a, fs.get? name = some a := by
  rw [mem_names, keys_declared] at h
  exact Table.mem_keys_iff.mp h

theorem mem_names_of_get? {fs : FieldSet α} {name : String} {a : Scoped α}
    (h : fs.get? name = some a) : name ∈ fs.names := by
  rw [mem_names, keys_declared]
  exact Table.mem_keys_iff.mpr ⟨a, h⟩

theorem get?_of_not_mem_names {fs : FieldSet α} {name : String} (h : name ∉ fs.names) :
    fs.get? name = none := by
  rw [mem_names, keys_declared] at h
  exact Table.get?_eq_none_iff.mpr h

/-- The listed fields are those that are found under some name. -/
theorem mem_all {fs : FieldSet α} {h : Scoped α} : h ∈ fs.all ↔ ∃ name, fs.get? name = some h := by
  unfold all
  rw [List.mem_filterMap]
  constructor
  · rintro ⟨name, -, hg⟩
    exact ⟨name, hg⟩
  · rintro ⟨name, hg⟩
    exact ⟨name, mem_names_of_get? hg, hg⟩

/-- What holds of the records of all fields holds of every declared record. -/
theorem forall_mem_all {fs : FieldSet α} {P : α → Prop} :
    (∀ h ∈ fs.all, P h.record) ↔ ∀ name r, fs.declared.get? name = some r → P r := by
  constructor
  · intro H name r hr
    obtain ⟨h, hg, rfl⟩ := get?_declared_eq_some_iff.mp hr
    exact H h (mem_all.mpr ⟨name, hg⟩)
  · intro H h hh
    obtain ⟨name, hg⟩ := mem_all.mp hh
    exact H name h.record (get?_declared_eq_some_iff.mpr ⟨h, hg, rfl⟩)

/-- What some field has, some declared record has. -/
theorem exists_mem_all {fs : FieldSet α} {P : α → Prop} :
    (∃ h ∈ fs.all, P h.record) ↔ ∃ name r, fs.declared.get? name = some r ∧ P r := by
  constructor
  · rintro ⟨h, hh, hp⟩
    obtain ⟨name, hg⟩ := mem_all.mp hh
    exact ⟨name, h.record, get?_declared_eq_some_iff.mpr ⟨h, hg, rfl⟩, hp⟩
  · rintro ⟨name, r, hr, hp⟩
    obtain ⟨h, hg, rfl⟩ := get?_declared_eq_some_iff.mp hr
    exact ⟨h, mem_all.mpr ⟨name, hg⟩, hp⟩

/-! ## Names of fields -/

/-- The fields carry the names under which they are found. -/
def Named (fs : FieldSet α) : Prop := ∀ name h, fs.get? name = some h → h.name = name

/-- Then the listed fields are found under their own names. -/
theorem Named.mem_all {fs : FieldSet α} (hn : fs.Named) {h : Scoped α} :
    h ∈ fs.all ↔ fs.get? h.name = some h := by
  rw [FieldSet.mem_all]
  constructor
  · rintro ⟨name, hg⟩
    rw [hn name h hg]
    exact hg
  · exact fun hg => ⟨h.name, hg⟩

/-- What holds of all fields holds of every declared record under its name. -/
theorem Named.forall_mem_all {fs : FieldSet α} (hn : fs.Named) {P : String → α → Prop} :
    (∀ h ∈ fs.all, P h.name h.record) ↔ ∀ name r, fs.declared.get? name = some r → P name r := by
  constructor
  · intro H name r hr
    obtain ⟨h, hg, rfl⟩ := get?_declared_eq_some_iff.mp hr
    rw [← hn name h hg]
    exact H h (FieldSet.mem_all.mpr ⟨name, hg⟩)
  · intro H h hh
    exact H h.name h.record (get?_declared_eq_some_iff.mpr ⟨h, hn.mem_all.mp hh, rfl⟩)

/-- The fields carry the names under which they are found, and the owner. -/
structure Labelled (fs : FieldSet α) (owner : Option String) : Prop where
  named : fs.Named
  owned : ∀ name h, fs.get? name = some h → h.owner = owner

theorem labelled_empty (owner : Option String) : (empty : FieldSet α).Labelled owner :=
  ⟨nofun, nofun⟩

section OfTable

variable {records : Table α} {preferred : List String} {owner : Option String}

theorem get?_ofTable (records : Table α) (preferred : List String) (owner : Option String)
    (name : String) : (ofTable records preferred owner).get? name =
      (records.get? name).map fun r => ⟨name, owner, r⟩ :=
  Table.get?_mapValues records _ name

/-- Records stay as they are. -/
theorem declared_ofTable : (ofTable records preferred owner).declared = records := by
  refine Table.ext ?_
  show (records.entries.map _).map _ = records.entries
  rw [List.map_map]
  exact List.map_id' _

/-- Every record is labelled. -/
theorem labelled_ofTable : (ofTable records preferred owner).Labelled owner := by
  have hlabel : ∀ name h, (ofTable records preferred owner).get? name = some h →
      h.name = name ∧ h.owner = owner := by
    intro name h hg
    rw [get?_ofTable] at hg
    obtain ⟨r, -, rfl⟩ := Option.map_eq_some_iff.mp hg
    exact ⟨rfl, rfl⟩
  exact ⟨fun name h hg => (hlabel name h hg).1, fun name h hg => (hlabel name h hg).2⟩

end OfTable

/-! ## Other records -/

theorem contains_map (fs : FieldSet α) (f : α → β) : (fs.map f).contains = fs.contains := by
  funext name
  show (fs.fields.mapValues fun _ => Scoped.map f).keys.contains name = fs.fields.keys.contains name
  rw [Table.keys_mapValues]

/-- The order of the fields does not depend on the records. -/
theorem names_map (fs : FieldSet α) (f : α → β) : (fs.map f).names = fs.names := by
  unfold names
  rw [contains_map]
  show _ ++ (fs.fields.mapValues fun _ => Scoped.map f).keys.filter _ = _
  rw [Table.keys_mapValues]
  rfl

theorem get?_map (fs : FieldSet α) (f : α → β) (name : String) :
    (fs.map f).get? name = (fs.get? name).map (Scoped.map f) :=
  Table.get?_mapValues fs.fields _ name

theorem all_map (fs : FieldSet α) (f : α → β) : (fs.map f).all = fs.all.map (Scoped.map f) := by
  have hget : (fs.map f).get? = fun name => (fs.get? name).map (Scoped.map f) :=
    funext (get?_map fs f)
  unfold all
  rw [names_map, List.map_filterMap, hget]

theorem Named.map {fs : FieldSet α} (hn : fs.Named) (f : α → β) : (fs.map f).Named := by
  intro name h hg
  rw [get?_map] at hg
  obtain ⟨h', hg', rfl⟩ := Option.map_eq_some_iff.mp hg
  exact hn name h' hg'

end FieldSet

end SignedDocs
