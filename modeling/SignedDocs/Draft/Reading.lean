import SignedDocs.Draft

/-!
Reading a specification from JSON.

* `Reading`: a value together with everything that is wrong with its text.
* `entries`: an object is read entry by entry; an entry that cannot be read is an
  issue at its own place and does not disturb the others.
* `Draft.read`: only a root that is no object gives no specification at all.
-/

namespace SignedDocs

/-- A value and the issues met on the way. -/
structure Reading (α : Type) where
  value : α
  issues : List Issue

namespace Reading

instance : Monad Reading where
  pure a := ⟨a, []⟩
  bind x f := ⟨(f x.value).value, x.issues ++ (f x.value).issues⟩

theorem value_bind {α β : Type} (x : Reading α) (f : α → Reading β) :
    (x >>= f).value = (f x.value).value := rfl

theorem value_pure {α : Type} (a : α) : (pure a : Reading α).value = a := rfl

theorem bind_value {α β : Type} (a : α) (f : α → Reading β) :
    (⟨a, []⟩ : Reading α) >>= f = f a := rfl

/-- A value with an issue. -/
def failed {α : Type} (value : α) (place : List String) (finding : Finding) : Reading α :=
  ⟨value, [⟨place, finding⟩]⟩

/-- Only an issue. -/
def issue (place : List String) (finding : Finding) : Reading Unit := failed () place finding

/-! ## Values -/

/-- A record at a place. -/
def record {α : Type} (codec : Codec α) (place : List String) (v : Json) : Reading (Option α) :=
  match codec.read v with
  | .ok a => ⟨some a, []⟩
  | .error e => failed none place (.unreadable e)

/-- The entries of an object. -/
def object (place : List String) (v : Json) : Reading (Option (Table Json)) :=
  match v.fields? with
  | some t => ⟨some t, []⟩
  | none => failed none place (.notObject v)

theorem object_of_fields {place : List String} {v : Json} {t : Table Json}
    (h : v.fields? = some t) : object place v = ⟨some t, []⟩ := by
  unfold object
  rw [h]

/-- The entries of an object that can be read, each at its own place. -/
def entries {α : Type} (read : List String → Json → Reading (Option α)) (place : List String)
    (v : Json) : Reading (Table α) := do
  match ← object place v with
  | none => pure Table.empty
  | some t =>
    ⟨t.filterMap fun k w => (read (place ++ [k]) w).value,
      t.entries.flatMap fun e => (read (place ++ [e.1]) e.2).issues⟩

/-! ## Fields -/

/-- What stands under a key, read at its place; without it `absent` and an issue. -/
def field {α : Type} (missing : Finding) (absent : α) (read : List String → Json → Reading α)
    (place : List String) (t : Table Json) (key : String) : Reading α :=
  match t.get? key with
  | some v => read (place ++ [key]) v
  | none => failed absent (place ++ [key]) missing

/-- A record under a key, or `absent`. -/
def recordField {α : Type} (codec : Codec α) (absent : α) (place : List String) (t : Table Json)
    (key : String) : Reading α := do
  let a ← field .missingField none (record codec) place t key
  pure (a.getD absent)

/-- Records under the keys of an object that stands under a key. -/
def entriesField {α : Type} (codec : Codec α) (place : List String) (t : Table Json)
    (key : String) : Reading (Table α) :=
  field .missingField Table.empty (entries (record codec)) place t key

/-- Keys that are not known. -/
def rejectUnknown (known : List String) (place : List String) (t : Table Json) : Reading Unit :=
  ⟨(), (t.keys.filter fun k => !known.contains k).map fun k => ⟨place ++ [k], .unknownField⟩⟩

end Reading

/-! ## Sections -/

open Reading

def HeaderSection.keys : List String :=
  ["headerFormats", "headers", "headersOrder", "signature_headers"]

def HeaderSection.read (place : List String) (v : Json) : Reading HeaderSection := do
  match ← object place v with
  | none => pure .empty
  | some t =>
    rejectUnknown keys place t
    let formats ← entriesField ValueFormat.codec place t "headerFormats"
    let headers ← entriesField ProtectedHeader.codec place t "headers"
    let order ← recordField (.list .text) [] place t "headersOrder"
    let signature ← entriesField ProtectedHeader.codec place t "signature_headers"
    pure ⟨formats, .ofTable headers order none, order, .ofTable signature order none⟩

def MetadataSection.keys : List String := ["headers", "formats", "order"]

def MetadataSection.read (place : List String) (v : Json) : Reading MetadataSection := do
  match ← object place v with
  | none => pure .empty
  | some t =>
    rejectUnknown keys place t
    let headers ← entriesField MetadataField.codec place t "headers"
    let formats ← entriesField ValueFormat.codec place t "formats"
    let order ← recordField (.list .text) [] place t "order"
    pure ⟨.ofTable headers order none, formats, order⟩

/-- The other fields of a document: headers and metadata are taken out one after
the other, the last entry moving into the hole, and stand empty at the end. -/
def DocumentRecord.withoutFields (t : Table Json) : Table Json :=
  (((t.swapErase "headers").swapErase "metadata").insert "headers" (.object [])).insert "metadata"
    (.object [])

/-- A document; its headers and fields are read one by one. -/
def DocumentRecord.read (place : List String) (v : Json) : Reading (Option DocumentRecord) := do
  match ← object place v with
  | none => pure none
  | some t =>
    let headers ← entriesField ProtectedHeader.codec place t "headers"
    let metadata ← entriesField MetadataField.codec place t "metadata"
    let d ← record codec place (Json.ofTable (withoutFields t))
    pure (d.map fun d => { d with headers := headers, metadata := metadata })

/-! ## Specifications -/

namespace Draft

def requiredSections : List String :=
  ["authors", "base_types", "cddlDefinitions", "contentTypes", "copyright", "cose", "docClusters",
   "docs", "documentationLinks", "encodingTypes", "linkAKA", "metadata"]

/-- Sections that are kept as they are. -/
def optionalSections : List String := ["formTemplate", "presentationTemplate"]

/-- All sections of an object. -/
def readSections (root : Table Json) : Reading Draft := do
  rejectUnknown (requiredSections ++ optionalSections) [] root
  let authors ← recordField (.table .text) Table.empty [] root "authors"
  let idTexts ← recordField (.table .text) Table.empty [] root "base_types"
  let baseTypes ← ⟨(BaseTypes.ofTexts idTexts).1, (BaseTypes.ofTexts idTexts).2⟩
  let rules ← entriesField Cddl.Rule.codec [] root "cddlDefinitions"
  let contentTypes ← entriesField MediaType.codec [] root "contentTypes"
  let encodingTypes ← entriesField MediaType.codec [] root "encodingTypes"
  let copyright ← recordField Copyright.codec .empty [] root "copyright"
  let clusters ← entriesField Cluster.recordCodec [] root "docClusters"
  let addresses ← recordField (.table .text) Table.empty [] root "documentationLinks"
  let aliases ← recordField (.table .text) Table.empty [] root "linkAKA"
  let cose ← field .missingSection .empty HeaderSection.read [] root "cose"
  let metadata ← field .missingSection .empty MetadataSection.read [] root "metadata"
  let docs ← field .missingSection Table.empty (entries DocumentRecord.read) [] root "docs"
  pure {
    authors, baseTypes, contentTypes, encodingTypes, copyright, cose, metadata
    cddl := .ofRules rules
    clusters := .ofTable clusters
    docs := docs.mapValues fun name d => d.document name cose.order metadata.order
    links := ⟨addresses, aliases⟩
    formTemplate := root.get? "formTemplate"
    presentationTemplate := root.get? "presentationTemplate" }

/-- A specification as far as it can be read, with all issues of its shape. -/
def read (root : Json) : Option Draft × Report :=
  match root.fields? with
  | some t =>
    let r := readSections t
    (some r.value, .ofErrors r.issues)
  | none => (none, .ofErrors [⟨[], .rootNotObject root⟩])

/-- Only objects are read, section by section. -/
theorem exists_fields_of_read {root : Json} {d : Draft} (h : (read root).1 = some d) :
    ∃ t, root.fields? = some t ∧ d = (readSections t).value := by
  unfold read at h
  cases hr : root.fields? with
  | none =>
    rw [hr] at h
    cases h
  | some t =>
    rw [hr] at h
    cases h
    exact ⟨t, rfl, rfl⟩

end Draft

end SignedDocs
