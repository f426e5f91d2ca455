import SignedDocs.Proofs.ClusterLookup
import SignedDocs.Proofs.EntryReading
import SignedDocs.Proofs.Labels
import SignedDocs.Proofs.RearrangedReading
import SignedDocs.Proofs.Resolution

/-!
Which entries a reading keeps, and under which names.

* `DocumentBody.codec`: a document without its headers and metadata is a record of its own.
  `body_read_withoutFields`: it does not matter what they are nor where they stood.
* `Catalogue.readAlone`: an entry of a catalogue, if nothing but its value is looked at.
* `Draft.table_eq`: each catalogue of a draft holds the entries that can be read on their own.
* `Draft.read_keeps`: this for every object; and what is kept is labelled.
-/

namespace SignedDocs

/-! ## Bodies of documents -/

namespace DocumentBody

def fields : Fields (DocType × Option String × Option String × BusinessLogic × List String ×
    Option Payload × Signers × Table String × List Revision × Bool × Unit) :=
  .required "type" DocType.codec <|
  .defaulted "description" (.optional .text) none <|
  .defaulted "validation" (.optional .text) none <|
  .defaulted "business_logic" BusinessLogic.codec .empty <|
  .defaulted "notes" (.list .text) [] <|
  .defaulted "payload" (.optional Payload.codec) none <|
  .required "signers" Signers.codec <|
  .required "authors" (.table .text) <|
  .required "versions" (.list Revision.codec) <|
  .defaulted "draft" .flag false .nil

def codec : Codec DocumentBody :=
  .record "DocumentBody" fields
    (fun (type, description, validation, logic, notes, payload, signers, authors, versions,
        draft, _) =>
      ⟨type, description, validation, logic, notes, payload, signers, authors, versions, draft⟩)
    (fun d => (d.type, d.description, d.validation, d.businessLogic, d.notes, d.payload,
      d.signers, d.authors, d.versions, d.isDraft, ()))

end DocumentBody

/-- A record is read from an object if its entries can be read as fields and no field is
missing. -/
theorem Codec.read_record_ofTable_iff {α β : Type} {name : String} {fields : Fields β}
    {make : β → α} {parts : α → β} (hmake : ∀ b, parts (make b) = b) (hparts : ∀ a, make (parts a) = a)
    {t : Table Json} {a : α} : (record name fields make parts).read (Json.ofTable t) = .ok a ↔
      (∀ e ∈ t.entries, fields.check fields.names e = .ok ()) ∧ fields.ofTable t = .ok (parts a) := by
  show (readFields name fields (Json.ofTable t)).map make = .ok a ↔ _
  rw [map_ok_iff]
  simp only [readFields_ofTable_iff]
  constructor
  · rintro ⟨b, ⟨hcheck, hfields⟩, rfl⟩
    rw [hmake]
    exact ⟨hcheck, hfields⟩
  · rintro ⟨hcheck, hfields⟩
    exact ⟨_, ⟨hcheck, hfields⟩, hparts a⟩

/-- The names that are known only show in the error. -/
theorem Fields.check_known_iff {α : Type} (fields : Fields α) (known known' : List String)
    (e : String × Json) : fields.check known e = .ok () ↔ fields.check known' e = .ok () := by
  induction fields with
  | nil => exact ⟨nofun, nofun⟩
  | cons name codec absent rest ih =>
    show (if e.1 = name then _ else rest.check known e) = _ ↔
      (if e.1 = name then _ else rest.check known' e) = _
    by_cases h : e.1 = name
    · rw [if_pos h, if_pos h]
    · rw [if_neg h, if_neg h]
      exact ih

theorem Codec.readPart_table_nil {α : Type} {codec : Codec α} {error : ReadError} {a : Table α} :
    Fields.readPart (.table codec) none error (some (.object [])) = .ok a ↔ a = Table.empty := by
  show Except.ok Table.empty = _ ↔ _
  rw [Except.ok.injEq, eq_comm]

namespace DocumentRecord

variable {t : Table Json}

theorem check_iff {e : String × Json} (known known' : List String) (hheaders : e.1 ≠ "headers")
    (hmetadata : e.1 ≠ "metadata") :
    fields.check known e = .ok () ↔ DocumentBody.fields.check known' e = .ok () := by
  rw [Fields.check_known_iff fields known known']
  simp only [fields, DocumentBody.fields, Fields.required, Fields.defaulted, Fields.check,
    if_neg hheaders, if_neg hmetadata]

/-- What is left of a document when its headers and metadata are set aside. -/
def remaining (t : Table Json) : Table Json := (t.without "headers").without "metadata"

theorem get?_remaining (t : Table Json) (k : String) : (remaining t).get? k =
    if k = "metadata" then none else if k = "headers" then none else t.get? k := by
  unfold remaining
  rw [Table.get?_without, Table.get?_without]

theorem forall_check_iff :
    (∀ e ∈ (withoutFields t).entries, fields.check fields.names e = .ok ()) ↔
      ∀ e ∈ (remaining t).entries, DocumentBody.fields.check DocumentBody.fields.names e = .ok () := by
  have hempty : ∀ k, k = "headers" ∨ k = "metadata" →
      fields.check fields.names (k, .object []) = .ok () := by
    rintro k (rfl | rfl) <;> rfl
  rw [Table.forall_mem_entries (P := fun k v => fields.check fields.names (k, v) = .ok ()),
    Table.forall_mem_entries
      (P := fun k v => DocumentBody.fields.check DocumentBody.fields.names (k, v) = .ok ())]
  refine forall_congr' fun k => ?_
  rw [get?_withoutFields, get?_remaining]
  by_cases hmetadata : k = "metadata"
  · simp [hmetadata, hempty]
  · by_cases hheaders : k = "headers"
    · simp [hheaders, hempty]
    · simp only [if_neg hmetadata, if_neg hheaders]
      exact forall_congr' fun v => imp_congr_right fun _ => check_iff _ _ hheaders hmetadata

/-- The empty headers and metadata are always read, and nothing else depends on them. -/
theorem ofTable_iff {b : DocumentBody} {hs : Table ProtectedHeader} {ms : Table MetadataField} :
    fields.ofTable (withoutFields t) = .ok (b.type, b.description, b.validation, b.businessLogic,
        b.notes, hs, ms, b.payload, b.signers, b.authors, b.versions, b.isDraft, ()) ↔
      (hs = Table.empty ∧ ms = Table.empty) ∧
        DocumentBody.fields.ofTable (remaining t) = .ok (b.type, b.description, b.validation,
          b.businessLogic, b.notes, b.payload, b.signers, b.authors, b.versions, b.isDraft, ()) := by
  have hrest : ∀ k, k ≠ "metadata" → k ≠ "headers" →
      (withoutFields t).get? k = (remaining t).get? k := by
    intro k hk hk'
    rw [get?_withoutFields, get?_remaining, if_neg hk, if_neg hk', if_neg hk, if_neg hk']
  have hheaders : (withoutFields t).get? "headers" = some (.object []) := by
    rw [get?_withoutFields]
    rfl
  have hmetadata : (withoutFields t).get? "metadata" = some (.object []) := by
    rw [get?_withoutFields]
    rfl
  simp only [fields, DocumentBody.fields, Fields.required, Fields.defaulted, Fields.ofTable_cons,
    Fields.bind_pair_ok_iff, hheaders, hmetadata, Codec.readPart_table_nil]
  simp (disch := decide) only [hrest]
  constructor
  · rintro ⟨htype, hdescription, hvalidation, hlogic, hnotes, hhs, hms, hlater⟩
    exact ⟨⟨hhs, hms⟩, htype, hdescription, hvalidation, hlogic, hnotes, hlater⟩
  · rintro ⟨⟨hhs, hms⟩, htype, hdescription, hvalidation, hlogic, hnotes, hlater⟩
    exact ⟨htype, hdescription, hvalidation, hlogic, hnotes, hhs, hms, hlater⟩

/-- What a document is apart from its headers and metadata does not depend on them, nor on the
places that they leave to others. -/
theorem body_read_withoutFields (t : Table Json) :
    ((codec.read (Json.ofTable (withoutFields t))).map toDocumentBody).toOption =
      (DocumentBody.codec.read (Json.ofTable (remaining t))).toOption := by
  apply Option.ext
  intro b
  rw [toOption_eq_some_iff, toOption_eq_some_iff, map_ok_iff]
  have hrecord : ∀ d, codec.read (Json.ofTable (withoutFields t)) = .ok d ↔ _ := fun _ =>
    Codec.read_record_ofTable_iff (fun _ => rfl) fun _ => rfl
  have hbody : DocumentBody.codec.read (Json.ofTable (remaining t)) = .ok b ↔ _ :=
    Codec.read_record_ofTable_iff (fun _ => rfl) fun _ => rfl
  rw [hbody, ← forall_check_iff]
  constructor
  · rintro ⟨d, hd, rfl⟩
    obtain ⟨hcheck, hfields⟩ := (hrecord d).mp hd
    exact ⟨hcheck, (ofTable_iff.mp hfields).2⟩
  · rintro ⟨hcheck, hfields⟩
    refine ⟨⟨b, Table.empty, Table.empty⟩, (hrecord _).mpr ⟨hcheck, ?_⟩, rfl⟩
    exact ofTable_iff.mpr ⟨⟨rfl, rfl⟩, hfields⟩

end DocumentRecord

/-! ## Entries on their own -/

namespace Json

/-- The entries of the object that some keys lead to; none if there is no object. -/
def entriesAt (v : Json) (keys : List String) : Table Json :=
  ((v.under? keys).bind fields?).getD Table.empty

theorem under?_append (v : Json) (ks ls : List String) :
    v.under? (ks ++ ls) = (v.under? ks).bind (·.under? ls) := by
  induction ks generalizing v with
  | nil => rfl
  | cons k ks ih =>
    show (v.get? k).bind (fun x => x.under? (ks ++ ls)) = ((v.get? k).bind (·.under? ks)).bind _
    cases v.get? k with
    | none => rfl
    | some x => exact ih x

theorem entriesAt_of_fields {v : Json} {t : Table Json} (h : v.fields? = some t) :
    v.entriesAt [] = t := by
  show v.fields?.getD Table.empty = t
  rw [h]
  rfl

theorem entriesAt_of_not_fields {v : Json} (h : v.fields? = none) (ks : List String) :
    v.entriesAt ks = Table.empty := by
  unfold entriesAt
  cases ks with
  | nil =>
    show v.fields?.getD _ = _
    rw [h]
    rfl
  | cons k ks =>
    show (((v.fields?.bind (·.get? k)).bind (·.under? ks)).bind fields?).getD _ = _
    rw [h]
    rfl

theorem entriesAt_cons {v : Json} {t : Table Json} (h : v.fields? = some t) (k : String)
    (ks : List String) :
    v.entriesAt (k :: ks) = ((t.get? k).map (·.entriesAt ks)).getD Table.empty := by
  show (((v.fields?.bind (·.get? k)).bind (·.under? ks)).bind fields?).getD _ = _
  rw [h]
  show (((t.get? k).bind (·.under? ks)).bind fields?).getD _ = _
  cases t.get? k <;> rfl

theorem under?_concat (v : Json) (ks : List String) (k : String) :
    v.under? (ks ++ [k]) = (v.entriesAt ks).get? k := by
  rw [under?_append]
  unfold entriesAt
  cases v.under? ks with
  | none => rfl
  | some x =>
    show (x.fields?.bind (·.get? k)).bind some = (x.fields?.getD Table.empty).get? k
    rw [Option.bind_fun_some]
    cases x.fields? <;> rfl

/-- Keys that go on from an entry. -/
theorem entriesAt_append {v w : Json} {ks : List String} {k : String}
    (h : (v.entriesAt ks).get? k = some w) (ls : List String) :
    v.entriesAt (ks ++ k :: ls) = w.entriesAt ls := by
  have hsplit : ks ++ k :: ls = ks ++ [k] ++ ls := by simp
  rw [hsplit]
  unfold entriesAt
  rw [under?_append, under?_concat, h]
  rfl

end Json

namespace Reading

variable {α : Type} {codec : Codec α} {place : List String} {v : Json} {t : Table Json}

theorem value_record : (record codec place v).value = (codec.read v).toOption := by
  unfold record
  cases codec.read v <;> rfl

theorem value_entries {read : List String → Json → Reading (Option α)} :
    (entries read place v).value =
      (v.entriesAt []).filterMap fun k w => (read (place ++ [k]) w).value := by
  cases h : v.fields? with
  | none =>
    rw [Json.entriesAt_of_not_fields h]
    unfold entries object
    rw [h]
    rfl
  | some t => rw [Json.entriesAt_of_fields h, entries_of_fields h]

/-- What stands under a key is read entry by entry, whatever else there is. -/
theorem value_field_entries {missing : Finding} {read : List String → Json → Reading (Option α)}
    {key : String} (h : v.fields? = some t) :
    (field missing Table.empty (entries read) place t key).value =
      (v.entriesAt [key]).filterMap fun k w => (read (place ++ [key] ++ [k]) w).value := by
  unfold field
  rw [Json.entriesAt_cons h]
  cases t.get? key with
  | none => rfl
  | some x => exact value_entries

theorem value_entriesField {key : String} (h : v.fields? = some t) :
    (entriesField codec place t key).value =
      (v.entriesAt [key]).filterMap fun _ w => (codec.read w).toOption := by
  unfold entriesField
  rw [value_field_entries h]
  simp only [value_record]

end Reading

namespace Catalogue

/-- What an entry of the catalogue is kept as. Headers and metadata of a document are catalogues
of their own. -/
def Kept : Catalogue → Type
  | .definitions => Cddl.Rule
  | .contentTypes | .encodingTypes => MediaType
  | .clusters => List String
  | .docs => DocumentBody
  | .headerFormats | .fieldFormats => ValueFormat
  | .headers | .signatureHeaders | .docHeaders _ => ProtectedHeader
  | .fields | .docFields _ => MetadataField

/-- A value as an entry of the catalogue, if it can be read on its own. Of a document its headers
and its metadata are set aside. -/
def readAlone : (c : Catalogue) → Json → Option c.Kept
  | .definitions, v => (Cddl.Rule.codec.read v).toOption
  | .contentTypes, v => (MediaType.codec.read v).toOption
  | .encodingTypes, v => (MediaType.codec.read v).toOption
  | .clusters, v => (Cluster.recordCodec.read v).toOption
  | .docs, v => v.fields?.bind fun t =>
    (DocumentBody.codec.read (Json.ofTable (DocumentRecord.remaining t))).toOption
  | .headerFormats, v => (ValueFormat.codec.read v).toOption
  | .headers, v => (ProtectedHeader.codec.read v).toOption
  | .signatureHeaders, v => (ProtectedHeader.codec.read v).toOption
  | .fields, v => (MetadataField.codec.read v).toOption
  | .fieldFormats, v => (ValueFormat.codec.read v).toOption
  | .docHeaders _, v => (ProtectedHeader.codec.read v).toOption
  | .docFields _, v => (MetadataField.codec.read v).toOption

/-- The document to which the catalogue belongs. -/
def document? : Catalogue → Option String
  | .docHeaders doc => some doc
  | .docFields doc => some doc
  | _ => none

end Catalogue

namespace Draft

/-- What a draft holds of a catalogue, in the order of declaration. -/
def table (d : Draft) : (c : Catalogue) → Table c.Kept
  | .definitions => d.cddl.declared
  | .contentTypes => d.contentTypes
  | .encodingTypes => d.encodingTypes
  | .clusters => d.clusters.declared
  | .docs => d.docs.mapValues fun _ x => x.toDocumentBody
  | .headerFormats => d.cose.formats
  | .headers => d.cose.headers.declared
  | .signatureHeaders => d.cose.signature.declared
  | .fields => d.metadata.headers.declared
  | .fieldFormats => d.metadata.formats
  | .docHeaders doc => (d.docs.get? doc).elim Table.empty fun x => x.headers.declared
  | .docFields doc => (d.docs.get? doc).elim Table.empty fun x => x.metadata.declared

end Draft

/-! ## Sections -/

open Reading

section Sections

variable {place : List String} {v : Json}

/-- A section keeps the entries of its catalogues that can be read. -/
structure HeaderSection.Keeps (c : HeaderSection) (formats headers signature : Table Json) :
    Prop where
  formats : c.formats = formats.filterMap fun _ w => (ValueFormat.codec.read w).toOption
  headers : c.headers.declared =
    headers.filterMap fun _ w => (ProtectedHeader.codec.read w).toOption
  signature : c.signature.declared =
    signature.filterMap fun _ w => (ProtectedHeader.codec.read w).toOption

theorem HeaderSection.keeps_empty :
    HeaderSection.empty.Keeps Table.empty Table.empty Table.empty := ⟨rfl, rfl, rfl⟩

theorem HeaderSection.keeps_read : (HeaderSection.read place v).value.Keeps
    (v.entriesAt ["headerFormats"]) (v.entriesAt ["headers"])
    (v.entriesAt ["signature_headers"]) := by
  cases h : v.fields? with
  | none =>
    rw [Json.entriesAt_of_not_fields h, Json.entriesAt_of_not_fields h,
      Json.entriesAt_of_not_fields h]
    unfold HeaderSection.read object
    rw [h]
    exact keeps_empty
  | some t =>
    unfold HeaderSection.read
    rw [object_of_fields h, bind_value]
    exact ⟨value_entriesField h, FieldSet.declared_ofTable.trans (value_entriesField h),
      FieldSet.declared_ofTable.trans (value_entriesField h)⟩

structure MetadataSection.Keeps (m : MetadataSection) (headers formats : Table Json) : Prop where
  headers : m.headers.declared =
    headers.filterMap fun _ w => (MetadataField.codec.read w).toOption
  formats : m.formats = formats.filterMap fun _ w => (ValueFormat.codec.read w).toOption

theorem MetadataSection.keeps_empty : MetadataSection.empty.Keeps Table.empty Table.empty :=
  ⟨rfl, rfl⟩

theorem MetadataSection.keeps_read : (MetadataSection.read place v).value.Keeps
    (v.entriesAt ["headers"]) (v.entriesAt ["formats"]) := by
  cases h : v.fields? with
  | none =>
    rw [Json.entriesAt_of_not_fields h, Json.entriesAt_of_not_fields h]
    unfold MetadataSection.read object
    rw [h]
    exact keeps_empty
  | some t =>
    unfold MetadataSection.read
    rw [object_of_fields h, bind_value]
    exact ⟨FieldSet.declared_ofTable.trans (value_entriesField h), value_entriesField h⟩

/-- A document is kept if it is an object with a body, and takes over its headers and fields. -/
theorem DocumentRecord.value_read : (DocumentRecord.read place v).value =
    v.fields?.bind fun t => (codec.read (Json.ofTable (withoutFields t))).toOption.map fun d =>
      { d with
        headers := (v.entriesAt ["headers"]).filterMap fun _ w =>
          (ProtectedHeader.codec.read w).toOption
        metadata := (v.entriesAt ["metadata"]).filterMap fun _ w =>
          (MetadataField.codec.read w).toOption } := by
  cases h : v.fields? with
  | none =>
    unfold DocumentRecord.read object
    rw [h]
    rfl
  | some t =>
    have hheaders : (entriesField ProtectedHeader.codec place t "headers").value = _ :=
      value_entriesField h
    have hmetadata : (entriesField MetadataField.codec place t "metadata").value = _ :=
      value_entriesField h
    unfold DocumentRecord.read
    rw [object_of_fields h, bind_value, ← hheaders, ← hmetadata]
    simp only [value_bind, value_pure, value_record]
    rfl

theorem DocumentRecord.body_value_read :
    (DocumentRecord.read place v).value.map toDocumentBody = Catalogue.readAlone .docs v := by
  rw [value_read]
  show _ = v.fields?.bind _
  cases v.fields? with
  | none => rfl
  | some t =>
    show Option.map _ (Option.map _ _) = (DocumentBody.codec.read _).toOption
    rw [← body_read_withoutFields, Option.map_map]
    cases codec.read (Json.ofTable (withoutFields t)) <;> rfl

end Sections

/-! ## The whole specification -/

namespace Draft

section Read

variable {root : Json} {t : Table Json}

theorem keeps_cose (h : root.fields? = some t) : (readSections t).value.cose.Keeps
    (root.entriesAt ["cose", "headerFormats"]) (root.entriesAt ["cose", "headers"])
    (root.entriesAt ["cose", "signature_headers"]) := by
  show (field .missingSection .empty HeaderSection.read [] t "cose").value.Keeps _ _ _
  unfold field
  rw [Json.entriesAt_cons h, Json.entriesAt_cons h, Json.entriesAt_cons h]
  cases t.get? "cose" with
  | none => exact HeaderSection.keeps_empty
  | some v => exact HeaderSection.keeps_read

theorem keeps_metadata (h : root.fields? = some t) : (readSections t).value.metadata.Keeps
    (root.entriesAt ["metadata", "headers"]) (root.entriesAt ["metadata", "formats"]) := by
  show (field .missingSection .empty MetadataSection.read [] t "metadata").value.Keeps _ _
  unfold field
  rw [Json.entriesAt_cons h, Json.entriesAt_cons h]
  cases t.get? "metadata" with
  | none => exact MetadataSection.keeps_empty
  | some v => exact MetadataSection.keeps_read

/-- The documents are the records that can be read, under their names. -/
theorem docs_eq (h : root.fields? = some t) : ∃ headerOrder metadataOrder,
    (readSections t).value.docs =
      ((root.entriesAt ["docs"]).filterMap fun name v =>
        (DocumentRecord.read ["docs", name] v).value).mapValues fun name d =>
          d.document name headerOrder metadataOrder := by
  have hdocs : (readSections t).value.docs =
      (field .missingSection Table.empty (entries DocumentRecord.read) [] t "docs").value.mapValues
        fun name d => d.document name (readSections t).value.cose.order
          (readSections t).value.metadata.order := rfl
  rw [value_field_entries h] at hdocs
  exact ⟨_, _, hdocs⟩

/-- A document is one of the records, with its own headers and fields. -/
structure KeepsDocument (root : Json) (name : String) (x : Document) : Prop where
  headers : x.headers.declared = (root.entriesAt ["docs", name, "headers"]).filterMap fun _ w =>
    (ProtectedHeader.codec.read w).toOption
  metadata : x.metadata.declared = (root.entriesAt ["docs", name, "metadata"]).filterMap fun _ w =>
    (MetadataField.codec.read w).toOption

theorem keepsDocument_of_get? (h : root.fields? = some t) {name : String} {x : Document}
    (hx : (readSections t).value.docs.get? name = some x) : KeepsDocument root name x := by
  obtain ⟨headerOrder, metadataOrder, hdocs⟩ := docs_eq h
  rw [hdocs, Table.get?_mapValues, Table.get?_filterMap] at hx
  obtain ⟨d, hd, rfl⟩ := Option.map_eq_some_iff.mp hx
  obtain ⟨v, hv, hread⟩ := Option.bind_eq_some_iff.mp hd
  rw [DocumentRecord.value_read] at hread
  obtain ⟨u, -, hmap⟩ := Option.bind_eq_some_iff.mp hread
  obtain ⟨r, -, rfl⟩ := Option.map_eq_some_iff.mp hmap
  have hheaders : root.entriesAt ["docs", name, "headers"] = v.entriesAt ["headers"] :=
    Json.entriesAt_append hv ["headers"]
  have hmetadata : root.entriesAt ["docs", name, "metadata"] = v.entriesAt ["metadata"] :=
    Json.entriesAt_append hv ["metadata"]
  rw [← hheaders, ← hmetadata]
  exact ⟨FieldSet.declared_ofTable, FieldSet.declared_ofTable⟩

theorem table_docs (h : root.fields? = some t) : (readSections t).value.table .docs =
    (root.entriesAt ["docs"]).filterMap fun _ v => Catalogue.readAlone .docs v := by
  obtain ⟨headerOrder, metadataOrder, hdocs⟩ := docs_eq h
  have hbody : ∀ records : Table DocumentRecord,
      (records.mapValues fun name d => d.document name headerOrder metadataOrder).mapValues
        (fun _ x => x.toDocumentBody) = records.mapValues fun _ d => d.toDocumentBody := by
    intro records
    exact Table.ext (List.map_map ..)
  show (readSections t).value.docs.mapValues (fun _ x => x.toDocumentBody) = _
  rw [hdocs, hbody, Table.mapValues_filterMap]
  simp only [DocumentRecord.body_value_read]
  rfl

theorem table_docHeaders {d : Draft} {doc : String} {x : Document} (hx : d.docs.get? doc = some x) :
    d.table (.docHeaders doc) = x.headers.declared := by
  show (d.docs.get? doc).elim Table.empty (fun x => x.headers.declared) = _
  rw [hx]
  rfl

theorem table_docFields {d : Draft} {doc : String} {x : Document} (hx : d.docs.get? doc = some x) :
    d.table (.docFields doc) = x.metadata.declared := by
  show (d.docs.get? doc).elim Table.empty (fun x => x.metadata.declared) = _
  rw [hx]
  rfl

/-- Whatever the catalogue, its entries are those that can be read on their own. -/
theorem table_eq (h : root.fields? = some t) (c : Catalogue)
    (hdoc : ∀ doc, c.document? = some doc → doc ∈ (readSections t).value.docs.keys) :
    (readSections t).value.table c =
      (root.entriesAt c.place).filterMap fun _ v => c.readAlone v := by
  cases c with
  | definitions => exact (Cddl.Registry.declared_ofRules _).trans (value_entriesField h)
  | contentTypes => exact value_entriesField h
  | encodingTypes => exact value_entriesField h
  | clusters => exact (Clusters.declared_ofTable _).trans (value_entriesField h)
  | docs => exact table_docs h
  | headerFormats => exact (keeps_cose h).formats
  | headers => exact (keeps_cose h).headers
  | signatureHeaders => exact (keeps_cose h).signature
  | fields => exact (keeps_metadata h).headers
  | fieldFormats => exact (keeps_metadata h).formats
  | docHeaders doc =>
    obtain ⟨x, hx⟩ := Table.mem_keys_iff.mp (hdoc doc rfl)
    exact (table_docHeaders hx).trans (keepsDocument_of_get? h hx).headers
  | docFields doc =>
    obtain ⟨x, hx⟩ := Table.mem_keys_iff.mp (hdoc doc rfl)
    exact (table_docFields hx).trans (keepsDocument_of_get? h hx).metadata

end Read

/-! ## Listed names -/

end Draft

/-- The catalogue has an order of its own. -/
def Catalogue.isOrdered : Catalogue → Bool
  | .headers | .signatureHeaders | .fields | .docHeaders _ | .docFields _ => true
  | _ => false

namespace Draft

/-- Without an order of its own a catalogue is listed in the order of declaration. -/
theorem names_of_not_isOrdered (d : Draft) {c : Catalogue} (h : c.isOrdered = false) :
    d.names c = (d.table c).keys := by
  cases c with
  | definitions => exact d.cddl.keys_declared.symm
  | clusters => exact (Table.keys_mapValues d.clusters.clusters _).symm
  | docs => exact (Table.keys_mapValues d.docs _).symm
  | headers => cases h
  | signatureHeaders => cases h
  | fields => cases h
  | docHeaders doc => cases h
  | docFields doc => cases h
  | _ => rfl

/-- An order neither loses nor adds a name. -/
theorem mem_names_iff (d : Draft) (c : Catalogue) (name : String) :
    name ∈ d.names c ↔ name ∈ (d.table c).keys := by
  by_cases h : c.isOrdered = false
  · rw [d.names_of_not_isOrdered h]
  · cases c with
    | headers => exact FieldSet.mem_names
    | signatureHeaders => exact FieldSet.mem_names
    | fields => exact FieldSet.mem_names
    | docHeaders doc =>
      show name ∈ (d.docs.get? doc).elim [] _ ↔ name ∈ ((d.docs.get? doc).elim Table.empty _).keys
      cases d.docs.get? doc with
      | none => exact Iff.rfl
      | some x => exact FieldSet.mem_names
    | docFields doc =>
      show name ∈ (d.docs.get? doc).elim [] _ ↔ name ∈ ((d.docs.get? doc).elim Table.empty _).keys
      cases d.docs.get? doc with
      | none => exact Iff.rfl
      | some x => exact FieldSet.mem_names
    | _ => exact absurd rfl h

/-- A specification keeps the entries that can be read on their own, in every catalogue and, for
each document that is kept, in those of the document; catalogues without an order list them in
the order of the text. Declared definitions are found. Everything carries its name and its owner. -/
theorem read_keeps (es : List (String × Json)) : ∃ d, (read (.object es)).1 = some d ∧
    (∀ c : Catalogue, (∀ doc, c.document? = some doc → doc ∈ d.docs.keys) →
      d.table c = ((Json.object es).entriesAt c.place).filterMap fun _ v => c.readAlone v) ∧
    (∀ c, (∀ name, name ∈ d.names c ↔ name ∈ (d.table c).keys) ∧
      (c.isOrdered = false → d.names c = (d.table c).keys)) ∧
    (∀ name e, d.cddl.declared? name = some e → d.cddl.get name = .ok e) ∧ d.Labelled := by
  have hroot : (Json.object es).fields? = some (Table.ofList es) := rfl
  refine ⟨(readSections (Table.ofList es)).value, rfl, table_eq hroot, ?_, ?_,
    labelled_readSections _⟩
  · intro c
    exact ⟨mem_names_iff _ c, names_of_not_isOrdered _⟩
  · intro name e he
    exact Cddl.Registry.get_eq_ok_iff.mpr (Or.inr ⟨rfl, he⟩)

end Draft

end SignedDocs
