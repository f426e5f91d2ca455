import SignedDocs.Draft.Reading
import SignedDocs.Proofs.Replacement

/-!
Reading entry by entry: an entry that cannot be read does not disturb the others.

* `Catalogue`: the objects of a specification that are read entry by entry, with their places
  and with what is wrong with an entry of each (`Catalogue.issues`).
* `Draft.without`: the draft without an entry of a catalogue.
* `Reading.Frames`: of a reading in which one value varies, only one piece of the issues and
  one part of the result vary. Sequences keep to this (`Frames.after`, `Frames.before`), and
  entries do (`frames_entries`).
* `read_replace`: with another value under a key of a catalogue a specification has the same
  issues before and after those of the entry, and the same other entries.
-/

namespace SignedDocs

/-! ## Readings with one part that varies -/

namespace Reading

variable {α β γ δ : Type} {issuesOf : Json → List Issue}

/-- The issues vary in one piece only, and of the value nothing varies but what `rest`
leaves out. -/
def Frames (issuesOf : Json → List Issue) (rest : α → β) (r : Json → Reading α) : Prop :=
  ∃ pre post result, ∀ w, (r w).issues = pre ++ issuesOf w ++ post ∧ rest (r w).value = result

/-- What is read before does not vary. -/
theorem Frames.after {x : Reading α} {f : Json → α → Reading β} {rest : β → γ}
    (h : Frames issuesOf rest fun w => f w x.value) : Frames issuesOf rest fun w => x >>= f w := by
  obtain ⟨pre, post, result, hf⟩ := h
  refine ⟨x.issues ++ pre, post, result, ?_⟩
  intro w
  refine ⟨?_, (hf w).2⟩
  show x.issues ++ (f w x.value).issues = _
  rw [(hf w).1]
  simp only [List.append_assoc]

/-- What is read afterwards has the same issues, and the part that varies stays within
bounds. -/
theorem Frames.before {x : Json → Reading α} {rest : α → γ} (h : Frames issuesOf rest x)
    {f : α → Reading β} {rest' : β → δ} (hissues : ∀ a b, (f a).issues = (f b).issues)
    (hvalue : ∀ a b, rest a = rest b → rest' (f a).value = rest' (f b).value) :
    Frames issuesOf rest' fun w => x w >>= f := by
  obtain ⟨pre, post, result, hx⟩ := h
  refine ⟨pre, post ++ (f (x .null).value).issues, rest' (f (x .null).value).value, ?_⟩
  intro w
  constructor
  · show (x w).issues ++ (f (x w).value).issues = _
    rw [(hx w).1, hissues (x w).value (x .null).value]
    simp only [List.append_assoc]
  · exact hvalue _ _ ((hx w).2.trans (hx .null).2.symm)

/-- If nothing is left of an entry, it may vary as a whole. -/
theorem Frames.whole (read : Json → Reading (Option α)) :
    Frames (fun w => (read w).issues) (·.bind fun _ => (none : Option α)) read := by
  refine ⟨[], [], none, ?_⟩
  intro w
  refine ⟨by simp, ?_⟩
  cases (read w).value <;> rfl

/-! ## Objects and their fields -/

theorem object_replace {place : List String} {v : Json} {t : Table Json} (h : v.fields? = some t)
    (key : String) (ks : List String) (w : Json) :
    object place (v.replace (key :: ks) w) = ⟨some (t.modify key fun x => x.replace ks w), []⟩ :=
  object_of_fields (Json.fields?_replace_of_fields h key ks w)

theorem entries_of_fields {read : List String → Json → Reading (Option α)} {place : List String}
    {v : Json} {t : Table Json} (h : v.fields? = some t) :
    entries read place v = ⟨t.filterMap fun k w => (read (place ++ [k]) w).value,
      t.entries.flatMap fun e => (read (place ++ [e.1]) e.2).issues⟩ := by
  unfold entries
  rw [object_of_fields h, bind_value]

section Modified

variable {t : Table Json} {key : String} {g : Json → Json}

theorem field_modify_self {missing : Finding} {absent : α} {read : List String → Json → Reading α}
    {place : List String} {x : Json} (hx : t.get? key = some x) :
    field missing absent read place (t.modify key g) key = read (place ++ [key]) (g x) := by
  unfold field
  rw [Table.get?_modify_self hx]

theorem field_modify_of_ne {missing : Finding} {absent : α} {read : List String → Json → Reading α}
    {place : List String} {other : String} (h : other ≠ key) :
    field missing absent read place (t.modify key g) other =
      field missing absent read place t other := by
  unfold field
  rw [Table.get?_modify_of_ne h]

theorem recordField_modify_of_ne {codec : Codec α} {absent : α} {place : List String}
    {other : String} (h : other ≠ key) :
    recordField codec absent place (t.modify key g) other =
      recordField codec absent place t other := by
  unfold recordField
  rw [field_modify_of_ne h]

theorem entriesField_modify_of_ne {codec : Codec α} {place : List String} {other : String}
    (h : other ≠ key) :
    entriesField codec place (t.modify key g) other = entriesField codec place t other :=
  field_modify_of_ne h

theorem rejectUnknown_modify {known place : List String} :
    rejectUnknown known place (t.modify key g) = rejectUnknown known place t := by
  unfold rejectUnknown
  rw [Table.keys_modify]

end Modified

/-- Entries vary with the entry that varies. -/
theorem frames_entries {read : List String → Json → Reading (Option α)} {place : List String}
    {v : Json} {k : String} {ks : List String} {t : Table Json} {x : Json}
    (ht : v.fields? = some t) (hx : t.get? k = some x) {rest : α → Option α}
    (h : Frames issuesOf (·.bind rest) fun w => read (place ++ [k]) (x.replace ks w)) :
    Frames issuesOf (·.revise k rest) fun w => entries read place (v.replace (k :: ks) w) := by
  obtain ⟨pre, post, result, hread⟩ := h
  obtain ⟨before, after, hsplit⟩ := Table.exists_entries_modify hx
  have hentries : ∀ w, entries read place (v.replace (k :: ks) w) =
      ⟨(t.modify k fun x => x.replace ks w).filterMap fun l u => (read (place ++ [l]) u).value,
        (t.modify k fun x => x.replace ks w).entries.flatMap fun e =>
          (read (place ++ [e.1]) e.2).issues⟩ := by
    intro w
    exact entries_of_fields (Json.fields?_replace_of_fields ht k ks w)
  refine ⟨before.flatMap (fun e => (read (place ++ [e.1]) e.2).issues) ++ pre,
    post ++ after.flatMap fun e => (read (place ++ [e.1]) e.2).issues,
    (entries read place (v.replace (k :: ks) .null)).value.revise k rest, ?_⟩
  intro w
  have hissues : (read (place ++ [k]) (x.replace ks w)).issues = pre ++ issuesOf w ++ post :=
    (hread w).1
  constructor
  · show (entries read place (v.replace (k :: ks) w)).issues = _
    rw [hentries w]
    show (t.modify k fun x => x.replace ks w).entries.flatMap _ = _
    rw [hsplit, List.flatMap_append, List.flatMap_cons, hissues]
    simp only [List.append_assoc]
  · show (entries read place (v.replace (k :: ks) w)).value.revise k rest = _
    rw [hentries w, hentries .null, Table.revise_filterMap, Table.revise_filterMap]
    refine Table.filterMap_modify_congr hx ?_
    have hresult : ∀ u, (read (place ++ [k]) (x.replace ks u)).value.bind rest = result :=
      fun u => (hread u).2
    simp only [if_true]
    exact (hresult w).trans (hresult .null).symm

/-- So do the entries under a key. -/
theorem frames_entriesField {codec : Codec α} {place : List String} {t : Table Json}
    {key k : String} {x : Json} (hx : t.get? key = some x) (hk : (x.under? [k]).isSome) :
    Frames (fun w => (record codec (place ++ [key] ++ [k]) w).issues) (·.without k) fun w =>
      entriesField codec place (t.modify key fun x => x.replace [k] w) key := by
  obtain ⟨es, y, hes, hy, -⟩ := Json.isSome_under?_cons.mp hk
  have hentries : Frames (fun w => (record codec (place ++ [key] ++ [k]) w).issues) (·.without k)
      fun w => entries (record codec) (place ++ [key]) (x.replace [k] w) :=
    frames_entries hes hy (Frames.whole (record codec (place ++ [key] ++ [k])))
  unfold entriesField
  simp only [field_modify_self hx]
  exact hentries

/-- And so does what is made of them. -/
theorem frames_entriesField_bind {codec : Codec α} {place : List String} {t : Table Json}
    {key k : String} {x : Json} (hx : t.get? key = some x) (hk : (x.under? [k]).isSome)
    (hissuesOf : ∀ w, issuesOf w = (record codec (place ++ [key] ++ [k]) w).issues)
    {f : Table α → Reading β} {rest : β → γ} (hissues : ∀ a b, (f a).issues = (f b).issues)
    (hvalue : ∀ a b, a.without k = b.without k → rest (f a).value = rest (f b).value) :
    Frames issuesOf rest fun w =>
      entriesField codec place (t.modify key fun x => x.replace [k] w) key >>= f := by
  rw [show issuesOf = _ from funext hissuesOf]
  exact Frames.before (frames_entriesField hx hk) hissues hvalue

end Reading

/-! ## Catalogues -/

/-- An object of a specification that is read entry by entry. -/
inductive Catalogue where
  | definitions
  | contentTypes
  | encodingTypes
  | clusters
  | docs
  | headerFormats
  | headers
  | signatureHeaders
  | fields
  | fieldFormats
  | docHeaders (doc : String)
  | docFields (doc : String)
deriving DecidableEq, Repr

namespace Catalogue

/-- Keys that lead to the object. -/
def place : Catalogue → List String
  | .definitions => ["cddlDefinitions"]
  | .contentTypes => ["contentTypes"]
  | .encodingTypes => ["encodingTypes"]
  | .clusters => ["docClusters"]
  | .docs => ["docs"]
  | .headerFormats => ["cose", "headerFormats"]
  | .headers => ["cose", "headers"]
  | .signatureHeaders => ["cose", "signature_headers"]
  | .fields => ["metadata", "headers"]
  | .fieldFormats => ["metadata", "formats"]
  | .docHeaders doc => ["docs", doc, "headers"]
  | .docFields doc => ["docs", doc, "metadata"]

/-- What is wrong with a value as an entry of the catalogue, wherever it stands. -/
def issues (c : Catalogue) (key : String) (v : Json) : List Issue :=
  let place := c.place ++ [key]
  match c with
  | .definitions => (Reading.record Cddl.Rule.codec place v).issues
  | .contentTypes | .encodingTypes => (Reading.record MediaType.codec place v).issues
  | .clusters => (Reading.record Cluster.recordCodec place v).issues
  | .docs => (DocumentRecord.read place v).issues
  | .headerFormats | .fieldFormats => (Reading.record ValueFormat.codec place v).issues
  | .headers | .signatureHeaders | .docHeaders _ =>
    (Reading.record ProtectedHeader.codec place v).issues
  | .fields | .docFields _ => (Reading.record MetadataField.codec place v).issues

end Catalogue

namespace Draft

/-- The draft without an entry of a catalogue. -/
def without (d : Draft) : Catalogue → String → Draft
  | .definitions, k => { d with cddl := { d.cddl with definitions := d.cddl.definitions.without k } }
  | .contentTypes, k => { d with contentTypes := d.contentTypes.without k }
  | .encodingTypes, k => { d with encodingTypes := d.encodingTypes.without k }
  | .clusters, k => { d with clusters := ⟨d.clusters.clusters.without k⟩ }
  | .docs, k => { d with docs := d.docs.without k }
  | .headerFormats, k => { d with cose := { d.cose with formats := d.cose.formats.without k } }
  | .headers, k => { d with cose := { d.cose with headers := d.cose.headers.without k } }
  | .signatureHeaders, k =>
    { d with cose := { d.cose with signature := d.cose.signature.without k } }
  | .fields, k => { d with metadata := { d.metadata with headers := d.metadata.headers.without k } }
  | .fieldFormats, k =>
    { d with metadata := { d.metadata with formats := d.metadata.formats.without k } }
  | .docHeaders doc, k =>
    { d with docs := d.docs.modify doc fun x => { x with headers := x.headers.without k } }
  | .docFields doc, k =>
    { d with docs := d.docs.modify doc fun x => { x with metadata := x.metadata.without k } }

/-- Names of the entries of a catalogue, in canonical order where there is one. -/
def names (d : Draft) : Catalogue → List String
  | .definitions => d.cddl.definitions.keys
  | .contentTypes => d.contentTypes.keys
  | .encodingTypes => d.encodingTypes.keys
  | .clusters => d.clusters.clusters.keys
  | .docs => d.docs.keys
  | .headerFormats => d.cose.formats.keys
  | .headers => d.cose.headers.names
  | .signatureHeaders => d.cose.signature.names
  | .fields => d.metadata.headers.names
  | .fieldFormats => d.metadata.formats.keys
  | .docHeaders doc => (d.docs.get? doc).elim [] fun x => x.headers.names
  | .docFields doc => (d.docs.get? doc).elim [] fun x => x.metadata.names

/-- The other entries keep their order. -/
theorem names_without (d : Draft) (c : Catalogue) (k : String) :
    (d.without c k).names c = (d.names c).filter fun n => n ≠ k := by
  cases c with
  | definitions => exact Table.keys_without _ k
  | contentTypes => exact Table.keys_without _ k
  | encodingTypes => exact Table.keys_without _ k
  | clusters => exact Table.keys_without _ k
  | docs => exact Table.keys_without _ k
  | headerFormats => exact Table.keys_without _ k
  | headers => exact FieldSet.names_without _ k
  | signatureHeaders => exact FieldSet.names_without _ k
  | fields => exact FieldSet.names_without _ k
  | fieldFormats => exact Table.keys_without _ k
  | docHeaders doc =>
    show ((d.docs.modify doc _).get? doc).elim [] _ = ((d.docs.get? doc).elim [] _).filter _
    unfold Table.modify
    rw [Table.get?_mapValues]
    cases d.docs.get? doc with
    | none => rfl
    | some x => simpa using FieldSet.names_without x.headers k
  | docFields doc =>
    show ((d.docs.modify doc _).get? doc).elim [] _ = ((d.docs.get? doc).elim [] _).filter _
    unfold Table.modify
    rw [Table.get?_mapValues]
    cases d.docs.get? doc with
    | none => rfl
    | some x => simpa using FieldSet.names_without x.metadata k

end Draft

/-! ## Sections -/

open Reading

section Sections

variable {place : List String} {v : Json} {k : String}

/-- The section without an entry of one of its catalogues. -/
def HeaderSection.without (h : HeaderSection) (k : String) : Catalogue → HeaderSection
  | .headerFormats => { h with formats := h.formats.without k }
  | .headers => { h with headers := h.headers.without k }
  | .signatureHeaders => { h with signature := h.signature.without k }
  | _ => h

theorem HeaderSection.frames_read {c : Catalogue}
    (hc : c = .headerFormats ∨ c = .headers ∨ c = .signatureHeaders)
    (h : (v.under? (c.place.tail ++ [k])).isSome) :
    Frames (c.issues k) (·.without k c)
      fun w => HeaderSection.read ["cose"] (v.replace (c.place.tail ++ [k]) w) := by
  rcases hc with rfl | rfl | rfl
  all_goals
    obtain ⟨t, x, ht, hx, hk⟩ := Json.isSome_under?_cons.mp h
    unfold HeaderSection.read
    simp (disch := decide) only [Catalogue.place, List.tail_cons, List.cons_append, List.nil_append,
      object_replace ht, bind_value, entriesField_modify_of_ne, recordField_modify_of_ne,
      rejectUnknown_modify]
    repeat refine Frames.after ?_
    refine frames_entriesField_bind hx hk ?_ ?_ ?_
    · exact fun _ => rfl
    · exact fun _ _ => rfl
    intro a b hab
    simp only [value_bind, value_pure, without, FieldSet.without_ofTable, hab]

/-- The section without an entry of one of its catalogues. -/
def MetadataSection.without (m : MetadataSection) (k : String) : Catalogue → MetadataSection
  | .fields => { m with headers := m.headers.without k }
  | .fieldFormats => { m with formats := m.formats.without k }
  | _ => m

theorem MetadataSection.frames_read {c : Catalogue} (hc : c = .fields ∨ c = .fieldFormats)
    (h : (v.under? (c.place.tail ++ [k])).isSome) :
    Frames (c.issues k) (·.without k c)
      fun w => MetadataSection.read ["metadata"] (v.replace (c.place.tail ++ [k]) w) := by
  rcases hc with rfl | rfl
  all_goals
    obtain ⟨t, x, ht, hx, hk⟩ := Json.isSome_under?_cons.mp h
    unfold MetadataSection.read
    simp (disch := decide) only [Catalogue.place, List.tail_cons, List.cons_append, List.nil_append,
      object_replace ht, bind_value, entriesField_modify_of_ne, recordField_modify_of_ne,
      rejectUnknown_modify]
    repeat refine Frames.after ?_
    refine frames_entriesField_bind hx hk ?_ ?_ ?_
    · exact fun _ => rfl
    · exact fun _ _ => rfl
    intro a b hab
    simp only [value_bind, value_pure, without, FieldSet.without_ofTable, hab]

/-- The other fields of a document do not contain its headers and metadata, in whatever order
they are after the removal. -/
theorem DocumentRecord.withoutFields_modify {t : Table Json} {key : String} (f : Json → Json)
    (hkey : key = "headers" ∨ key = "metadata") : withoutFields (t.modify key f) = withoutFields t := by
  have hgone : key ∉ ((t.swapErase "headers").swapErase "metadata").keys := by
    intro h
    obtain ⟨hrest, hmetadata⟩ := Table.of_mem_keys_swapErase h
    obtain ⟨-, hheaders⟩ := Table.of_mem_keys_swapErase hrest
    rcases hkey with hkey | hkey
    · exact hheaders hkey
    · exact hmetadata hkey
  unfold withoutFields
  rw [Table.swapErase_modify, Table.swapErase_modify, Table.modify_eq_self hgone]

/-- The record of a document without an entry of one of its catalogues. -/
def DocumentRecord.without (d : DocumentRecord) (k : String) : Catalogue → DocumentRecord
  | .docHeaders _ => { d with headers := d.headers.without k }
  | .docFields _ => { d with metadata := d.metadata.without k }
  | _ => d

theorem DocumentRecord.frames_read {doc : String} {c : Catalogue}
    (hc : c = .docHeaders doc ∨ c = .docFields doc)
    (h : (v.under? (c.place.drop 2 ++ [k])).isSome) :
    Frames (c.issues k) (·.bind fun d => some (d.without k c))
      fun w => DocumentRecord.read ["docs", doc] (v.replace (c.place.drop 2 ++ [k]) w) := by
  rcases hc with rfl | rfl
  all_goals
    obtain ⟨t, x, ht, hx, hk⟩ := Json.isSome_under?_cons.mp h
    unfold DocumentRecord.read
    simp (disch := decide) only [Catalogue.place, List.drop_succ_cons, List.drop_zero,
      List.cons_append, List.nil_append, object_replace ht, bind_value, entriesField_modify_of_ne,
      withoutFields_modify]
    repeat refine Frames.after ?_
    refine frames_entriesField_bind hx hk ?_ ?_ ?_
    · exact fun _ => rfl
    · exact fun _ _ => rfl
    intro a b hab
    simp only [value_bind, value_pure, Option.bind_map, Function.comp_def, without, hab]

end Sections

/-! ## The whole specification -/

namespace Draft

variable {t : Table Json} {x : Json} {k : String} {ks : List String} {issuesOf : Json → List Issue}

/-- Four catalogues are sections themselves. -/
theorem frames_section {c : Catalogue} {key : String}
    (hc : c = .definitions ∨ c = .contentTypes ∨ c = .encodingTypes ∨ c = .clusters)
    (hkey : c.place = [key]) (hx : t.get? key = some x) (hk : (x.under? [k]).isSome) :
    Frames (c.issues k) (·.without c k)
      fun w => readSections (t.modify key fun x => x.replace [k] w) := by
  rcases hc with rfl | rfl | rfl | rfl
  all_goals
    cases hkey
    unfold readSections
    simp (disch := decide) only [rejectUnknown_modify, recordField_modify_of_ne,
      entriesField_modify_of_ne, field_modify_of_ne, Table.get?_modify_of_ne]
    repeat refine Frames.after ?_
    refine frames_entriesField_bind hx hk ?_ ?_ ?_
    · exact fun _ => rfl
    · exact fun _ _ => rfl
    intro a b hab
    simp only [value_bind, value_pure, without, Cddl.Registry.ofRules, Clusters.ofTable,
      Table.without_mapValues, hab]

/-- Documents take over the order of the protected headers, so that it must not vary. -/
theorem frames_cose (hx : t.get? "cose" = some x) {rest : HeaderSection → HeaderSection}
    (h : Frames issuesOf rest fun w => HeaderSection.read ["cose"] (x.replace ks w))
    (horder : ∀ c, (rest c).order = c.order) :
    Frames issuesOf (fun d => { d with cose := rest d.cose })
      fun w => readSections (t.modify "cose" fun x => x.replace ks w) := by
  unfold readSections
  simp (disch := decide) only [rejectUnknown_modify, recordField_modify_of_ne,
    entriesField_modify_of_ne, field_modify_of_ne, Table.get?_modify_of_ne, field_modify_self hx]
  repeat refine Frames.after ?_
  refine Frames.before h (fun _ _ => rfl) ?_
  intro a b hab
  have hsame : a.order = b.order := by rw [← horder a, hab, horder]
  simp only [value_bind, value_pure, hab, hsame]

/-- So they do with the order of the metadata. -/
theorem frames_metadata (hx : t.get? "metadata" = some x) {rest : MetadataSection → MetadataSection}
    (h : Frames issuesOf rest fun w => MetadataSection.read ["metadata"] (x.replace ks w))
    (horder : ∀ m, (rest m).order = m.order) :
    Frames issuesOf (fun d => { d with metadata := rest d.metadata })
      fun w => readSections (t.modify "metadata" fun x => x.replace ks w) := by
  unfold readSections
  simp (disch := decide) only [rejectUnknown_modify, recordField_modify_of_ne,
    entriesField_modify_of_ne, field_modify_of_ne, Table.get?_modify_of_ne, field_modify_self hx]
  repeat refine Frames.after ?_
  refine Frames.before h (fun _ _ => rfl) ?_
  intro a b hab
  have hsame : a.order = b.order := by rw [← horder a, hab, horder]
  simp only [value_bind, value_pure, hab, hsame]

/-- What can be left out of the records of documents can be left out of the documents. -/
theorem frames_docs (hx : t.get? "docs" = some x)
    {rest : Table DocumentRecord → Table DocumentRecord} (restDocs : Documents → Documents)
    (h : Frames issuesOf rest fun w => entries DocumentRecord.read ["docs"] (x.replace ks w))
    (hdocs : ∀ (records : Table DocumentRecord) headerOrder metadataOrder,
      restDocs (records.mapValues fun name d => d.document name headerOrder metadataOrder) =
        (rest records).mapValues fun name d => d.document name headerOrder metadataOrder) :
    Frames issuesOf (fun d => { d with docs := restDocs d.docs })
      fun w => readSections (t.modify "docs" fun x => x.replace ks w) := by
  unfold readSections
  simp (disch := decide) only [rejectUnknown_modify, recordField_modify_of_ne,
    entriesField_modify_of_ne, field_modify_of_ne, Table.get?_modify_of_ne, field_modify_self hx]
  repeat refine Frames.after ?_
  refine Frames.before h (fun _ _ => rfl) ?_
  intro a b hab
  simp only [value_pure, hdocs, hab]

theorem frames_docs_without (hx : t.get? "docs" = some x) (hk : (x.under? [k]).isSome) :
    Frames (fun w => (DocumentRecord.read ["docs", k] w).issues) (·.without .docs k)
      fun w => readSections (t.modify "docs" fun x => x.replace [k] w) := by
  obtain ⟨es, y, hes, hy, -⟩ := Json.isSome_under?_cons.mp hk
  have hread : Frames (fun w => (DocumentRecord.read ["docs", k] w).issues)
      (·.bind fun _ => (none : Option DocumentRecord))
      fun w => DocumentRecord.read (["docs"] ++ [k]) (y.replace [] w) :=
    Frames.whole (DocumentRecord.read ["docs", k])
  have hentries : Frames (fun w => (DocumentRecord.read ["docs", k] w).issues) (·.without k)
      fun w => entries DocumentRecord.read ["docs"] (x.replace [k] w) :=
    frames_entries hes hy hread
  exact frames_docs hx (·.without k) hentries fun records _ _ => Table.without_mapValues records _ k

/-- What can be left out of the record of one document can be left out of the document. -/
theorem frames_document {doc : String} (hx : t.get? "docs" = some x)
    (hdoc : (x.under? (doc :: ks)).isSome) (rest : DocumentRecord → DocumentRecord)
    {restDoc : Document → Document}
    (h : ∀ y : Json, (y.under? ks).isSome →
      Frames issuesOf (·.bind fun d => some (rest d))
        fun w => DocumentRecord.read (["docs"] ++ [doc]) (y.replace ks w))
    (hrest : ∀ (d : DocumentRecord) headerOrder metadataOrder,
      restDoc (d.document doc headerOrder metadataOrder) =
        (rest d).document doc headerOrder metadataOrder) :
    Frames issuesOf (fun d => { d with docs := d.docs.modify doc restDoc })
      fun w => readSections (t.modify "docs" fun x => x.replace (doc :: ks) w) := by
  obtain ⟨es, y, hes, hy, hks⟩ := Json.isSome_under?_cons.mp hdoc
  have hentries : Frames issuesOf (·.revise doc fun d => some (rest d))
      fun w => entries DocumentRecord.read ["docs"] (x.replace (doc :: ks) w) :=
    frames_entries hes hy (h y hks)
  refine frames_docs hx (·.modify doc restDoc) hentries ?_
  intro records headerOrder metadataOrder
  rw [Table.revise_some]
  exact Table.modify_mapValues fun d => hrest d headerOrder metadataOrder

/-- Only the entry varies, in whatever catalogue it is. -/
theorem frames_readSections {root : Json} {c : Catalogue}
    (h : (root.under? (c.place ++ [k])).isSome) :
    ∃ sections : Json → Table Json,
      (∀ w, (root.replace (c.place ++ [k]) w).fields? = some (sections w)) ∧
      Frames (c.issues k) (·.without c k) fun w => readSections (sections w) := by
  obtain ⟨key, ks, hplace⟩ : ∃ key ks, c.place ++ [k] = key :: ks := by
    cases c <;> exact ⟨_, _, rfl⟩
  rw [hplace] at h ⊢
  obtain ⟨t, x, ht, hx, hk⟩ := Json.isSome_under?_cons.mp h
  refine ⟨fun w => t.modify key fun x => x.replace ks w, Json.fields?_replace_of_fields ht key ks, ?_⟩
  cases c with
  | definitions => cases hplace; exact frames_section (by simp) rfl hx hk
  | contentTypes => cases hplace; exact frames_section (by simp) rfl hx hk
  | encodingTypes => cases hplace; exact frames_section (by simp) rfl hx hk
  | clusters => cases hplace; exact frames_section (by simp) rfl hx hk
  | headerFormats =>
    cases hplace
    exact frames_cose hx (HeaderSection.frames_read (c := .headerFormats) (by simp) hk) fun _ => rfl
  | headers =>
    cases hplace
    exact frames_cose hx (HeaderSection.frames_read (c := .headers) (by simp) hk) fun _ => rfl
  | signatureHeaders =>
    cases hplace
    exact frames_cose hx (HeaderSection.frames_read (c := .signatureHeaders) (by simp) hk)
      fun _ => rfl
  | fields =>
    cases hplace
    exact frames_metadata hx (MetadataSection.frames_read (c := .fields) (by simp) hk) fun _ => rfl
  | fieldFormats =>
    cases hplace
    exact frames_metadata hx (MetadataSection.frames_read (c := .fieldFormats) (by simp) hk)
      fun _ => rfl
  | docs => cases hplace; exact frames_docs_without hx hk
  | docHeaders doc =>
    cases hplace
    refine frames_document hx hk (fun d => d.without k (.docHeaders doc)) ?_ ?_
    · intro y hy
      exact DocumentRecord.frames_read (.inl rfl) hy
    · intro d headerOrder metadataOrder
      simp only [DocumentRecord.document, DocumentRecord.without, FieldSet.without_ofTable]
  | docFields doc =>
    cases hplace
    refine frames_document hx hk (fun d => d.without k (.docFields doc)) ?_ ?_
    · intro y hy
      exact DocumentRecord.frames_read (.inr rfl) hy
    · intro d headerOrder metadataOrder
      simp only [DocumentRecord.document, DocumentRecord.without, FieldSet.without_ofTable]

/-- Whatever stands under a key of a catalogue, a specification has the same issues before and
after those of the entry, which are what is wrong with the value in this place, and without
the entry it is the same; what else the catalogue has keeps its order. -/
theorem read_replace {root : Json} {c : Catalogue} {key : String}
    (h : (root.under? (c.place ++ [key])).isSome) :
    ∃ pre post rest, ∀ v, ∃ d : Draft,
      read (root.replace (c.place ++ [key]) v) =
        (some d, .ofErrors (pre ++ c.issues key v ++ post)) ∧
      d.without c key = rest ∧
      rest.names c = (d.names c).filter fun n => n ≠ key := by
  obtain ⟨sections, hsections, pre, post, rest, hread⟩ := frames_readSections h
  refine ⟨pre, post, rest, ?_⟩
  intro v
  obtain ⟨hissues, hrest⟩ := hread v
  refine ⟨(readSections (sections v)).value, ?_, hrest, ?_⟩
  · unfold read
    rw [hsections v, ← hissues]
  · rw [← hrest, names_without]

/-- A letter with two fields, neither of which can be read. -/
def addressed : Json :=
  .object [("docs", .object [("letter", .object [("headers", .object []),
    ("metadata", .object [("from", .null), ("to", .bool false)])])])]

/-- The field `to` of a letter may be anything: the issues of `from`, of the letter itself and
of the missing sections stay where they are. -/
theorem addressed_replace :
    (addressed.under? ["docs", "letter", "metadata", "to"]).isSome ∧
    ∃ pre post rest, ∀ v, ∃ d : Draft,
      read (addressed.replace ["docs", "letter", "metadata", "to"] v) =
        (some d, .ofErrors (pre ++
          (record MetadataField.codec ["docs", "letter", "metadata", "to"] v).issues ++ post)) ∧
      d.without (.docFields "letter") "to" = rest ∧
      rest.names (.docFields "letter") = (d.names (.docFields "letter")).filter fun n => n ≠ "to" :=
  ⟨rfl, read_replace (c := .docFields "letter") rfl⟩

end Draft

end SignedDocs
