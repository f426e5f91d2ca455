import SignedDocs.Proofs.BaseTypeIds
import SignedDocs.Proofs.CodecLaws
import SignedDocs.Proofs.EntryReading
import SignedDocs.Proofs.Rearrangement
import SignedDocs.Proofs.Rejection

/-!
Reading rearranged specifications: both readings are clean or none is, and then the drafts
match in everything that is found under a name.

* `Draft.Matches`: drafts with the same declarations, in any order.
* `Reading.Alike`: two readings side by side. Sequences keep to it (`Alike.bind`); fields,
  entries and records of rearranged values have it.
* `exists_matching_read`: what is read without errors is read as well after a rearrangement.
-/

namespace SignedDocs

/-! ## Drafts that match -/

section Matching

variable {α : Type}

/-- The same fields, declared in any order. -/
structure FieldSet.Matches (a b : FieldSet α) : Prop where
  fields : a.fields.Agree (fun _ => Eq) b.fields
  preferred : a.preferred = b.preferred

/-- Documents that differ in the order of their headers and fields. -/
structure Document.Matches (a b : Document) : Prop where
  body : a.toDocumentBody = b.toDocumentBody
  headers : a.headers.Matches b.headers
  metadata : a.metadata.Matches b.metadata

structure HeaderSection.Matches (a b : HeaderSection) : Prop where
  formats : a.formats.Agree (fun _ => Eq) b.formats
  headers : a.headers.Matches b.headers
  order : a.order = b.order
  signature : a.signature.Matches b.signature

structure MetadataSection.Matches (a b : MetadataSection) : Prop where
  headers : a.headers.Matches b.headers
  formats : a.formats.Agree (fun _ => Eq) b.formats
  order : a.order = b.order

/-- Drafts with the same definitions, headers, documents, clusters and links, in any order. -/
structure Draft.Matches (a b : Draft) : Prop where
  definitions : a.cddl.definitions.Agree (fun _ => Eq) b.cddl.definitions
  copyright : a.copyright = b.copyright
  cose : a.cose.Matches b.cose
  metadata : a.metadata.Matches b.metadata
  clusters : a.clusters.clusters.Agree (fun _ => Eq) b.clusters.clusters
  docs : a.docs.Agree (fun _ => Document.Matches) b.docs
  addresses : a.links.addresses.Agree (fun _ => Eq) b.links.addresses
  aliases : a.links.aliases.Agree (fun _ => Eq) b.links.aliases

variable {a b : FieldSet α} {β : Type}

theorem FieldSet.Matches.symm (h : a.Matches b) : b.Matches a :=
  ⟨h.fields.symm, h.preferred.symm⟩

theorem FieldSet.Matches.declared (h : a.Matches b) :
    a.declared.Agree (fun _ => Eq) b.declared :=
  h.fields.mapValues fun _ _ _ hab => congrArg Scoped.record hab

theorem FieldSet.Matches.get?_declared_eq (h : a.Matches b) (name : String) :
    a.declared.get? name = b.declared.get? name := Table.agree_eq_iff.mp h.declared name

theorem FieldSet.Matches.map (h : a.Matches b) (f : α → β) : (a.map f).Matches (b.map f) :=
  ⟨h.fields.mapValues fun _ _ _ hab => congrArg (Scoped.map f) hab, h.preferred⟩

theorem FieldSet.matches_ofTable {s t : Table α} (h : s.Agree (fun _ => Eq) t)
    (preferred : List String) (owner : Option String) :
    (ofTable s preferred owner).Matches (ofTable t preferred owner) :=
  ⟨h.mapValues fun name _ _ hab => congrArg (Scoped.mk name owner) hab, rfl⟩

theorem Document.Matches.symm {a b : Document} (h : a.Matches b) : b.Matches a :=
  ⟨h.body.symm, h.headers.symm, h.metadata.symm⟩

theorem Draft.Matches.rules {a b : Draft} (h : a.Matches b) :
    a.cddl.declared.Agree (fun _ => Eq) b.cddl.declared :=
  h.definitions.mapValues fun _ _ _ hab => congrArg Cddl.Definition.rule hab

theorem Draft.Matches.members {a b : Draft} (h : a.Matches b) :
    a.clusters.declared.Agree (fun _ => Eq) b.clusters.declared :=
  h.clusters.mapValues fun _ _ _ hab => congrArg Cluster.docs hab

theorem Draft.Matches.symm {a b : Draft} (h : a.Matches b) : b.Matches a where
  definitions := h.definitions.symm
  copyright := h.copyright.symm
  cose := ⟨h.cose.formats.symm, h.cose.headers.symm, h.cose.order.symm, h.cose.signature.symm⟩
  metadata := ⟨h.metadata.headers.symm, h.metadata.formats.symm, h.metadata.order.symm⟩
  clusters := h.clusters.symm
  docs := ⟨h.docs.swap.keys, fun k b a hb ha => (h.docs.values k a b ha hb).symm⟩
  addresses := h.addresses.symm
  aliases := h.aliases.symm

end Matching

/-! ## Readings side by side -/

namespace Reading

variable {α β γ δ : Type}

/-- If the one reading is clean, so is the other, and the values are related. -/
def Alike (R : α → β → Prop) (x : Reading α) (y : Reading β) : Prop :=
  x.issues = [] → y.issues = [] ∧ R x.value y.value

theorem Alike.bind {R : α → β → Prop} {S : γ → δ → Prop} {x : Reading α} {y : Reading β}
    {f : α → Reading γ} {g : β → Reading δ} (h : x.Alike R y)
    (hfg : ∀ a b, R a b → (f a).Alike S (g b)) : (x >>= f).Alike S (y >>= g) := by
  intro hclean
  obtain ⟨hx, hf⟩ := List.append_eq_nil_iff.mp hclean
  obtain ⟨hy, hab⟩ := h hx
  obtain ⟨hg, hS⟩ := hfg x.value y.value hab hf
  exact ⟨List.append_eq_nil_iff.mpr ⟨hy, hg⟩, hS⟩

theorem alike_pure {R : α → β → Prop} {a : α} {b : β} (h : R a b) :
    (pure a : Reading α).Alike R (pure b) := fun _ => ⟨rfl, h⟩

/-- An issue is never clean. -/
theorem alike_failed {R : α → β → Prop} {a : α} {place : List String} {finding : Finding}
    {y : Reading β} : (failed a place finding).Alike R y := by
  intro h
  cases h

/-- Both values are there, and they are related. -/
def Both (R : α → β → Prop) (x : Option α) (y : Option β) : Prop :=
  ∃ a b, x = some a ∧ y = some b ∧ R a b

/-! ## Objects -/

section Objects

variable {part : String → Shape} {v w : Json} {s t : Table Json} {place : List String}

/-- Without keys there is only one value, and its reading has an issue. -/
theorem alike_object_bind {R : α → α → Prop} {f g : Option (Table Json) → Reading α}
    (h : (Shape.object part).Rearranged v w)
    (hfg : ∀ s t, s.Agree (fun k => (part k).Rearranged) t → (f (some s)).Alike R (g (some t))) :
    (object place v >>= f).Alike R (object place w >>= g) := by
  rcases h.fields with ⟨hv, rfl⟩ | ⟨s, t, hs, ht, hst⟩
  · intro hclean
    obtain ⟨hobject, -⟩ := List.append_eq_nil_iff.mp hclean
    unfold object at hobject
    rw [hv] at hobject
    cases hobject
  · rw [object_of_fields hs, object_of_fields ht, bind_value, bind_value]
    exact hfg s t hst

theorem alike_rejectUnknown (hst : ∀ k, k ∈ s.keys ↔ k ∈ t.keys) (known : List String) :
    (rejectUnknown known place s).Alike (fun _ _ => True) (rejectUnknown known place t) := by
  have hnone : ∀ u : Table Json, (rejectUnknown known place u).issues = [] ↔
      ∀ k ∈ u.keys, k ∈ known := by
    intro u
    show (u.keys.filter fun k => !known.contains k).map _ = [] ↔ _
    simp [List.map_eq_nil_iff, List.filter_eq_nil_iff]
  intro hclean
  refine ⟨(hnone t).mpr ?_, trivial⟩
  intro k hk
  exact (hnone s).mp hclean k ((hst k).mpr hk)

/-- Each entry is read for itself, wherever it stands. -/
theorem alike_entries {R : String → α → α → Prop}
    {read : List String → Json → Reading (Option α)} (h : (Shape.object part).Rearranged v w)
    (hread : ∀ k a b, (part k).Rearranged a b →
      (read (place ++ [k]) a).Alike (Both (R k)) (read (place ++ [k]) b)) :
    (entries read place v).Alike (Table.Agree R) (entries read place w) := by
  unfold entries
  refine alike_object_bind h ?_
  intro s t hst hclean
  have hissues : ∀ u : Table Json,
      (u.entries.flatMap fun e => (read (place ++ [e.1]) e.2).issues) = [] ↔
        ∀ k a, u.get? k = some a → (read (place ++ [k]) a).issues = [] := by
    intro u
    rw [List.flatMap_eq_nil_iff]
    exact Table.forall_mem_entries (P := fun k a => (read (place ++ [k]) a).issues = [])
  have hs := (hissues s).mp hclean
  have hvalues : (s.filterMap fun k x => (read (place ++ [k]) x).value).Agree R
      (t.filterMap fun k x => (read (place ++ [k]) x).value) := by
    refine hst.filterMap ?_
    intro k a b ha hb
    exact (hread k a b (hst.values k a b ha hb) (hs k a ha)).2
  refine ⟨(hissues t).mpr ?_, hvalues⟩
  intro k b hb
  obtain ⟨a, ha, hab⟩ := hst.exists_left hb
  exact (hread k a b hab (hs k a ha)).1

/-- What stands under a key; without the key both readings have an issue. -/
theorem alike_field {R : α → α → Prop} {missing : Finding} {absent : α}
    {read : List String → Json → Reading α} {key : String} {shape : Shape}
    (hst : s.Agree (fun k => (part k).Rearranged) t) (hkey : part key = shape)
    (hread : ∀ a b, shape.Rearranged a b →
      (read (place ++ [key]) a).Alike R (read (place ++ [key]) b)) :
    (field missing absent read place s key).Alike R (field missing absent read place t key) := by
  subst hkey
  unfold field
  rcases hst.cases key with ⟨hs, ht⟩ | ⟨a, b, hs, ht, hab⟩
  · rw [hs, ht]
    exact alike_failed
  · rw [hs, ht]
    exact hread a b hab

end Objects

/-! ## Records -/

section Records

variable {codec : Codec α} {place : List String} {v w : Json}

theorem alike_record {R : α → α → Prop}
    (h : ∀ a, codec.read v = .ok a → ∃ b, codec.read w = .ok b ∧ R a b) :
    (record codec place v).Alike (Both R) (record codec place w) := by
  intro hclean
  unfold record at hclean ⊢
  cases hv : codec.read v with
  | error e =>
    rw [hv] at hclean
    cases hclean
  | ok a =>
    obtain ⟨b, hw, hab⟩ := h a hv
    rw [hw]
    exact ⟨rfl, a, b, rfl, rfl, hab⟩

theorem alike_record_fixed (h : Shape.fixed.Rearranged v w) :
    (record codec place v).Alike (Both Eq) (record codec place w) := by
  rw [h.eq_of_fixed]
  exact alike_record fun a ha => ⟨a, ha, rfl⟩

/-- Records under names, read one by one. -/
theorem alike_entries_named (h : (Shape.named .fixed).Rearranged v w) :
    (entries (record codec) place v).Alike (Table.Agree fun _ => Eq)
      (entries (record codec) place w) :=
  alike_entries h fun _ _ _ hab => alike_record_fixed hab

/-- Values under names, read as one record: the table has the keys of the object. -/
theorem exists_of_table_read {t : Table α} (h : (Codec.table codec).read v = .ok t) :
    ∃ s, v.fields? = some s ∧ s.Agree (fun _ x a => codec.read x = .ok a) t := by
  cases v with
  | object entries =>
    obtain ⟨items, hitems, ht⟩ := bind_ok_iff.mp h
    cases ht
    have hread : ∀ (e : String × Json) (p : String × α),
        (codec.read e.2).map (fun a => (e.1, a)) = .ok p ↔ codec.read e.2 = .ok p.2 ∧ e.1 = p.1 := by
      intro e p
      cases codec.read e.2 <;> simp [Except.map, Prod.ext_iff, and_comm]
    have hkeys : items.map Prod.fst = (Table.ofList entries).keys :=
      map_eq_of_mapM_ok (p := Prod.fst) (fun e p hp => ((hread e p).mp hp).2.symm) hitems
    have hget : ∀ k a, (Table.ofList items).get? k = some a ↔ (k, a) ∈ items := by
      intro k a
      rw [Table.get?_eq_some_iff, Table.entries_ofList]
      rw [hkeys]
      exact (Table.ofList entries).keys_nodup
    refine ⟨Table.ofList entries, rfl, ?_, ?_⟩
    · intro k
      rw [← hkeys, Table.mem_keys_iff, List.mem_map]
      constructor
      · rintro ⟨p, hp, rfl⟩
        exact ⟨p.2, (hget p.1 p.2).mpr hp⟩
      · rintro ⟨a, ha⟩
        exact ⟨(k, a), (hget k a).mp ha, rfl⟩
    · intro k x a hx ha
      obtain ⟨e, he, hp⟩ := exists_of_mem_mapM hitems ((hget k a).mp ha)
      obtain ⟨hcodec, rfl⟩ := (hread e (k, a)).mp hp
      rw [Table.get?_eq_some_iff.mpr he] at hx
      cases hx
      exact hcodec
  | _ => cases h

theorem exists_table_read {s : Table Json} (hv : v.fields? = some s)
    (h : ∀ k x, s.get? k = some x → ∃ a, codec.read x = .ok a) :
    ∃ t, (Codec.table codec).read v = .ok t := by
  cases v with
  | object entries =>
    cases hv
    have hall : ∀ e ∈ (Table.ofList entries).entries,
        ∃ p, (codec.read e.2).map (fun a => (e.1, a)) = .ok p := by
      intro e he
      obtain ⟨a, ha⟩ := h e.1 e.2 (Table.get?_eq_some_iff.mpr he)
      refine ⟨(e.1, a), ?_⟩
      rw [ha]
      rfl
    obtain ⟨items, hitems⟩ := mapM_ok_iff.mpr hall
    exact ⟨Table.ofList items, bind_ok_iff.mpr ⟨items, hitems, rfl⟩⟩
  | _ => cases hv

/-- An object of values can be read in any order. -/
theorem agree_of_table_read (h : (Shape.named .fixed).Rearranged v w) {t : Table α}
    (ht : (Codec.table codec).read v = .ok t) :
    ∃ u, (Codec.table codec).read w = .ok u ∧ t.Agree (fun _ => Eq) u := by
  obtain ⟨x, hx, hread⟩ := exists_of_table_read ht
  rcases h.fields with ⟨hv, -⟩ | ⟨x', y, hx', hy, hxy⟩
  · rw [hv] at hx
    cases hx
  · rw [hx] at hx'
    cases hx'
    have hsame : ∀ k, x.get? k = y.get? k :=
      Table.agree_eq_iff.mp ⟨hxy.keys, fun k a b ha hb => (hxy.values k a b ha hb).eq_of_fixed⟩
    have hall : ∀ k b, y.get? k = some b → ∃ a, codec.read b = .ok a := by
      intro k b hb
      rw [← hsame k] at hb
      obtain ⟨a, -, ha⟩ := hread.exists_right hb
      exact ⟨a, ha⟩
    obtain ⟨u, hu⟩ := exists_table_read hy hall
    obtain ⟨y', hy', hread'⟩ := exists_of_table_read hu
    rw [hy] at hy'
    cases hy'
    refine ⟨u, hu, ?_, ?_⟩
    · intro k
      rw [← hread.keys k, hxy.keys k, hread'.keys k]
    · intro k a b ha hb
      obtain ⟨j, hj, hja⟩ := hread.exists_left ha
      obtain ⟨l, hl, hlb⟩ := hread'.exists_left hb
      rw [← hsame k, hj] at hl
      cases hl
      rw [hja] at hlb
      cases hlb
      rfl

end Records

/-! ## Fields of a section -/

section Fields

variable {part : String → Shape} {s t : Table Json} {place : List String} {codec : Codec α}
  {key : String}

theorem alike_entriesField (hst : s.Agree (fun k => (part k).Rearranged) t)
    (hkey : part key = .named .fixed) :
    (entriesField codec place s key).Alike (Table.Agree fun _ => Eq)
      (entriesField codec place t key) :=
  alike_field hst hkey fun _ _ => alike_entries_named

theorem alike_recordField {R : α → α → Prop} {absent : α} {shape : Shape}
    (hst : s.Agree (fun k => (part k).Rearranged) t) (hkey : part key = shape)
    (hread : ∀ v w, shape.Rearranged v w →
      ∀ a, codec.read v = .ok a → ∃ b, codec.read w = .ok b ∧ R a b) :
    (recordField codec absent place s key).Alike R (recordField codec absent place t key) := by
  refine (alike_field (R := Both R) hst hkey ?_).bind ?_
  · intro v w hvw
    exact alike_record (hread v w hvw)
  · rintro _ _ ⟨a, b, rfl, rfl, hab⟩
    exact alike_pure hab

theorem alike_recordField_fixed {absent : α} (hst : s.Agree (fun k => (part k).Rearranged) t)
    (hkey : part key = .fixed) :
    (recordField codec absent place s key).Alike Eq (recordField codec absent place t key) := by
  refine alike_recordField hst hkey ?_
  intro v w hvw a ha
  rw [← hvw.eq_of_fixed]
  exact ⟨a, ha, rfl⟩

theorem alike_tableField {absent : Table α} (hst : s.Agree (fun k => (part k).Rearranged) t)
    (hkey : part key = .named .fixed) :
    (recordField (.table codec) absent place s key).Alike (Table.Agree fun _ => Eq)
      (recordField (.table codec) absent place t key) :=
  alike_recordField hst hkey fun _ _ hvw _ => agree_of_table_read hvw

end Fields

end Reading

/-! ## Records with the same fields -/

/-- The fields of an object are found by their names. -/
theorem Fields.ofTable_congr {s t : Table Json} (h : ∀ k, s.get? k = t.get? k) {α : Type}
    (fields : Fields α) : fields.ofTable s = fields.ofTable t := by
  induction fields with
  | nil => rfl
  | cons name codec absent rest ih => rw [ofTable_cons, ofTable_cons, h name, ih]

/-- Fields are read from an object if its entries can be read as fields and none is missing. -/
theorem Codec.readFields_ofTable_iff {α : Type} {name : String} {fields : Fields α}
    {t : Table Json} {a : α} : readFields name fields (Json.ofTable t) = .ok a ↔
      (∀ e ∈ t.entries, fields.check fields.names e = .ok ()) ∧ fields.ofTable t = .ok a := by
  show (((Table.ofList t.entries).entries.forM fun e => fields.check fields.names e) >>= fun _ =>
    fields.ofTable (Table.ofList t.entries)) = .ok a ↔ _
  rw [Table.ofList_entries, bind_ok_iff]
  constructor
  · rintro ⟨_, hcheck, hfields⟩
    exact ⟨forM_ok_iff.mp hcheck, hfields⟩
  · rintro ⟨hcheck, hfields⟩
    exact ⟨(), forM_ok_iff.mpr hcheck, hfields⟩

/-- An object of the same fields is the same record, if it is one at all; which error is met
first would depend on the order. -/
theorem Codec.readFields_congr {s t : Table Json} (h : ∀ k, s.get? k = t.get? k) {α : Type}
    {name : String} {fields : Fields α} {a : α}
    (hread : readFields name fields (Json.ofTable s) = .ok a) :
    readFields name fields (Json.ofTable t) = .ok a := by
  obtain ⟨hcheck, hfields⟩ := readFields_ofTable_iff.mp hread
  refine readFields_ofTable_iff.mpr ⟨?_, ?_⟩
  · intro e he
    have hs : s.get? e.1 = some e.2 := by
      rw [h e.1]
      exact Table.get?_eq_some_iff.mpr he
    exact hcheck e (Table.get?_eq_some_iff.mp hs)
  · rw [← Fields.ofTable_congr h]
    exact hfields

/-! ## Base types -/

/-- Base types that are clean are clean in any order. -/
theorem BaseTypes.ofTexts_clean_of_agree {s t : Table String} (h : s.Agree (fun _ => Eq) t)
    (hs : (ofTexts s).2 = []) : (ofTexts t).2 = [] := by
  obtain ⟨hall, hdistinct⟩ := ofTexts_clean_iff.mp hs
  refine ofTexts_clean_iff.mpr ⟨?_, ?_⟩
  · intro e he
    exact hall e (h.entries_perm.mem_iff.mpr he)
  · exact (h.entries_perm.map _).nodup_iff.mp hdistinct

/-! ## Sections -/

open Reading

section Sections

variable {place : List String} {v w : Json}

theorem HeaderSection.alike_read (h : Shape.headerSection.Rearranged v w) :
    (HeaderSection.read place v).Alike HeaderSection.Matches (HeaderSection.read place w) := by
  unfold HeaderSection.read
  refine alike_object_bind h ?_
  intro s t hst
  refine (alike_rejectUnknown hst.keys _).bind ?_
  intro _ _ _
  refine (alike_entriesField hst rfl).bind ?_
  intro formats formats' hformats
  refine (alike_entriesField hst rfl).bind ?_
  intro headers headers' hheaders
  refine (alike_recordField_fixed hst rfl).bind ?_
  rintro order _ rfl
  refine (alike_entriesField hst rfl).bind ?_
  intro signature signature' hsignature
  exact alike_pure ⟨hformats, FieldSet.matches_ofTable hheaders _ _, rfl,
    FieldSet.matches_ofTable hsignature _ _⟩

theorem MetadataSection.alike_read (h : Shape.metadataSection.Rearranged v w) :
    (MetadataSection.read place v).Alike MetadataSection.Matches (MetadataSection.read place w) := by
  unfold MetadataSection.read
  refine alike_object_bind h ?_
  intro s t hst
  refine (alike_rejectUnknown hst.keys _).bind ?_
  intro _ _ _
  refine (alike_entriesField hst rfl).bind ?_
  intro headers headers' hheaders
  refine (alike_entriesField hst rfl).bind ?_
  intro formats formats' hformats
  refine (alike_recordField_fixed hst rfl).bind ?_
  rintro order _ rfl
  exact alike_pure ⟨FieldSet.matches_ofTable hheaders _ _, hformats, rfl⟩

end Sections

/-! ## Documents -/

namespace DocumentRecord

/-- The headers and the fields stand empty, everything else stands where it can be found. -/
theorem get?_withoutFields (t : Table Json) (k : String) :
    (withoutFields t).get? k = if k = "metadata" then some (.object [])
      else if k = "headers" then some (.object []) else t.get? k := by
  unfold withoutFields
  rw [Table.get?_insert, Table.get?_insert]
  by_cases hmetadata : k = "metadata"
  · rw [if_pos hmetadata, if_pos hmetadata]
  · rw [if_neg hmetadata, if_neg hmetadata]
    by_cases hheaders : k = "headers"
    · rw [if_pos hheaders, if_pos hheaders]
    · rw [if_neg hheaders, if_neg hheaders, Table.get?_swapErase_of_ne hmetadata,
        Table.get?_swapErase_of_ne hheaders]

/-- Records that differ in the order of their headers and fields. -/
structure Matches (a b : DocumentRecord) : Prop where
  body : a.toDocumentBody = b.toDocumentBody
  headers : a.headers.Agree (fun _ => Eq) b.headers
  metadata : a.metadata.Agree (fun _ => Eq) b.metadata

theorem Matches.document {a b : DocumentRecord} (h : a.Matches b) (name : String)
    (headerOrder metadataOrder : List String) :
    (a.document name headerOrder metadataOrder).Matches
      (b.document name headerOrder metadataOrder) :=
  ⟨h.body, FieldSet.matches_ofTable h.headers _ _, FieldSet.matches_ofTable h.metadata _ _⟩

/-- Apart from headers and fields it is the same record. -/
theorem alike_read {place : List String} {v w : Json} (h : Shape.document.Rearranged v w) :
    (DocumentRecord.read place v).Alike (Both Matches) (DocumentRecord.read place w) := by
  unfold DocumentRecord.read
  refine alike_object_bind h ?_
  intro s t hst
  have hrest : ∀ k, (withoutFields s).get? k = (withoutFields t).get? k := by
    intro k
    rw [get?_withoutFields, get?_withoutFields]
    by_cases hmetadata : k = "metadata"
    · rw [if_pos hmetadata, if_pos hmetadata]
    · rw [if_neg hmetadata, if_neg hmetadata]
      by_cases hheaders : k = "headers"
      · rw [if_pos hheaders, if_pos hheaders]
      · rw [if_neg hheaders, if_neg hheaders]
        rcases hst.cases k with ⟨hs, ht⟩ | ⟨a, b, hs, ht, hab⟩
        · rw [hs, ht]
        · have hfixed : a = b := by
            split at hab
            · exact absurd rfl hheaders
            · exact absurd rfl hmetadata
            · exact hab.eq_of_fixed
          rw [hs, ht, hfixed]
  have hrecord : (record codec place (Json.ofTable (withoutFields s))).Alike (Both Eq)
      (record codec place (Json.ofTable (withoutFields t))) := by
    refine alike_record ?_
    intro a ha
    refine ⟨a, ?_, rfl⟩
    have hread : (Codec.readFields "RawDocument" fields (Json.ofTable (withoutFields s))).map _ =
      .ok a := ha
    cases hfields : Codec.readFields "RawDocument" fields (Json.ofTable (withoutFields s)) with
    | error e =>
      rw [hfields] at hread
      cases hread
    | ok parts =>
      rw [hfields] at hread
      show (Codec.readFields "RawDocument" fields (Json.ofTable (withoutFields t))).map _ = _
      rw [Codec.readFields_congr hrest hfields]
      exact hread
  refine (alike_entriesField hst rfl).bind ?_
  intro headers headers' hheaders
  refine (alike_entriesField hst rfl).bind ?_
  intro metadata metadata' hmetadata
  refine hrecord.bind ?_
  rintro _ _ ⟨d, _, rfl, rfl, rfl⟩
  exact alike_pure ⟨_, _, rfl, rfl, rfl, hheaders, hmetadata⟩

end DocumentRecord

/-! ## Specifications -/

namespace Draft

theorem alike_readSections {part : String → Shape} {s t : Table Json}
    (hpart : Shape.specification = .object part)
    (hst : s.Agree (fun k => (part k).Rearranged) t) :
    (readSections s).Alike Matches (readSections t) := by
  cases hpart
  unfold readSections
  refine (alike_rejectUnknown hst.keys _).bind ?_
  intro _ _ _
  refine (alike_tableField hst rfl).bind ?_
  intro authors authors' _
  refine (alike_tableField hst rfl).bind ?_
  intro idTexts idTexts' hidTexts
  have hbaseTypes : (⟨(BaseTypes.ofTexts idTexts).1, (BaseTypes.ofTexts idTexts).2⟩ :
      Reading BaseTypes).Alike (fun _ _ => True)
      ⟨(BaseTypes.ofTexts idTexts').1, (BaseTypes.ofTexts idTexts').2⟩ := fun hclean =>
    ⟨BaseTypes.ofTexts_clean_of_agree hidTexts hclean, trivial⟩
  refine hbaseTypes.bind ?_
  intro _ _ _
  refine (alike_entriesField hst rfl).bind ?_
  intro rules rules' hrules
  refine (alike_entriesField hst rfl).bind ?_
  intro _ _ _
  refine (alike_entriesField hst rfl).bind ?_
  intro _ _ _
  refine (alike_recordField_fixed hst rfl).bind ?_
  rintro copyright _ rfl
  refine (alike_entriesField hst rfl).bind ?_
  intro clusters clusters' hclusters
  refine (alike_tableField hst rfl).bind ?_
  intro addresses addresses' haddresses
  refine (alike_tableField hst rfl).bind ?_
  intro aliases aliases' haliases
  refine Alike.bind (R := HeaderSection.Matches)
    (alike_field hst rfl fun _ _ => HeaderSection.alike_read) ?_
  intro cose cose' hcose
  refine Alike.bind (R := MetadataSection.Matches)
    (alike_field hst rfl fun _ _ => MetadataSection.alike_read) ?_
  intro metadata metadata' hmetadata
  refine Alike.bind (R := Table.Agree fun _ => DocumentRecord.Matches)
    (alike_field hst rfl fun _ _ hdocs => alike_entries hdocs fun _ _ _ =>
      DocumentRecord.alike_read) ?_
  intro docs docs' hdocs
  refine alike_pure ⟨hrules.mapValues fun name _ _ hab => congrArg (Cddl.Definition.mk name) hab,
    rfl, hcose, hmetadata, hclusters.mapValues fun name _ _ hab => congrArg (Cluster.mk name) hab,
    ?_, haddresses, haliases⟩
  rw [hcose.order, hmetadata.order]
  exact hdocs.mapValues fun name _ _ hab => hab.document name _ _

/-- A rearranged specification is read without errors, too, as a draft that matches. -/
theorem exists_matching_read {root other : Json} (h : Shape.specification.Rearranged root other)
    (hclean : (read root).2.errors = []) {a : Draft} (ha : (read root).1 = some a) :
    (read other).2.errors = [] ∧ ∃ b, (read other).1 = some b ∧ a.Matches b := by
  rcases h.fields with ⟨hroot, -⟩ | ⟨s, t, hs, ht, hst⟩
  · unfold read at ha
    rw [hroot] at ha
    cases ha
  · unfold read at hclean ha ⊢
    simp only [hs, ht, Report.errors_ofErrors] at hclean ha ⊢
    cases ha
    obtain ⟨hother, hmatch⟩ := alike_readSections rfl hst hclean
    exact ⟨hother, _, rfl, hmatch⟩

end Draft

end SignedDocs
