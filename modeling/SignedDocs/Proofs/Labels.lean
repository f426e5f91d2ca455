import Mathlib.Data.List.Basic
import SignedDocs.Draft.Reading
import SignedDocs.ReferenceGraph

/-!
Labels: what a draft keeps under a name carries this name.

* `Draft.Labelled`: so do definitions, clusters, documents, headers and fields; headers and fields
  carry their owner, too.
* `labelled_of_read`: whatever is read is labelled, since each registry labels its records when it
  is built.
* `ofDocuments_eq_foldl_name`: labelled documents have one graph, whether it goes by their names or
  by the keys.
-/

namespace SignedDocs

namespace Draft

/-- Everything carries the name under which it is kept; fields of a document carry its name as
their owner, and global ones have none. -/
structure Labelled (d : Draft) : Prop where
  definitions : ∀ name e, d.cddl.declared? name = some e → e.name = name
  clusters : d.clusters.Named
  docs : ∀ name x, d.docs.get? name = some x → x.name = name
  headers : d.cose.headers.Labelled none
  signature : d.cose.signature.Labelled none
  fields : d.metadata.headers.Labelled none
  docHeaders : ∀ name x, d.docs.get? name = some x → x.headers.Labelled (some name)
  docFields : ∀ name x, d.docs.get? name = some x → x.metadata.Labelled (some name)

end Draft

/-! ## Sections -/

open Reading

theorem HeaderSection.labelled_read (place : List String) (v : Json) :
    (HeaderSection.read place v).value.headers.Labelled none ∧
      (HeaderSection.read place v).value.signature.Labelled none := by
  unfold HeaderSection.read
  rw [value_bind]
  cases (object place v).value with
  | none => exact ⟨FieldSet.labelled_empty none, FieldSet.labelled_empty none⟩
  | some t => exact ⟨FieldSet.labelled_ofTable, FieldSet.labelled_ofTable⟩

theorem MetadataSection.labelled_read (place : List String) (v : Json) :
    (MetadataSection.read place v).value.headers.Labelled none := by
  unfold MetadataSection.read
  rw [value_bind]
  cases (object place v).value with
  | none => exact FieldSet.labelled_empty none
  | some t => exact FieldSet.labelled_ofTable

/-- What holds of every value that is read, and of the one for a section that is missing, holds of
the section. -/
theorem Reading.value_field {α : Type} {P : α → Prop} {missing : Finding} {absent : α}
    {read : List String → Json → Reading α} {place : List String} {t : Table Json} {key : String}
    (habsent : P absent) (hread : ∀ place v, P (read place v).value) :
    P (field missing absent read place t key).value := by
  unfold field
  cases t.get? key with
  | none => exact habsent
  | some v => exact hread _ v

/-! ## The whole specification -/

namespace Draft

/-- Documents are made under their names. -/
theorem exists_record_of_get? {t : Table Json} {name : String} {x : Document}
    (h : (readSections t).value.docs.get? name = some x) : ∃ (d : DocumentRecord) (headerOrder
      metadataOrder : List String), d.document name headerOrder metadataOrder = x := by
  have hdocs : (readSections t).value.docs =
      (field .missingSection Table.empty (entries DocumentRecord.read) [] t "docs").value.mapValues
        fun name d => d.document name (readSections t).value.cose.order
          (readSections t).value.metadata.order := rfl
  rw [hdocs, Table.get?_mapValues] at h
  obtain ⟨d, -, hd⟩ := Option.map_eq_some_iff.mp h
  exact ⟨d, _, _, hd⟩

theorem labelled_readSections (t : Table Json) : (readSections t).value.Labelled where
  definitions _ _ h := Cddl.Registry.name_of_declared?_ofRules h
  clusters := Clusters.named_ofTable _
  docs _ _ hx := by
    obtain ⟨d, _, _, rfl⟩ := exists_record_of_get? hx
    rfl
  headers := value_field (P := fun c : HeaderSection => c.headers.Labelled none)
    (FieldSet.labelled_empty none) fun place v => (HeaderSection.labelled_read place v).1
  signature := value_field (P := fun c : HeaderSection => c.signature.Labelled none)
    (FieldSet.labelled_empty none) fun place v => (HeaderSection.labelled_read place v).2
  fields := value_field (P := fun m : MetadataSection => m.headers.Labelled none)
    (FieldSet.labelled_empty none) MetadataSection.labelled_read
  docHeaders _ _ hx := by
    obtain ⟨d, _, _, rfl⟩ := exists_record_of_get? hx
    exact FieldSet.labelled_ofTable
  docFields _ _ hx := by
    obtain ⟨d, _, _, rfl⟩ := exists_record_of_get? hx
    exact FieldSet.labelled_ofTable

/-- Reading labels everything. -/
theorem labelled_of_read {root : Json} {d : Draft} (h : (read root).1 = some d) : d.Labelled := by
  obtain ⟨t, -, rfl⟩ := exists_fields_of_read h
  exact labelled_readSections t

end Draft

/-! ## References -/

/-- The graph of labelled documents, filled under the names that they carry. -/
theorem ReferenceGraph.ofDocuments_eq_foldl_name {d : Draft} (hl : d.Labelled)
    (referenceFormat : String) : ofDocuments d.docs referenceFormat =
      d.docs.values.foldl (fun g x => g.addTargets x.name (targetsOf referenceFormat x))
        (edgeless d.docs) := by
  unfold ofDocuments Table.values
  rw [List.foldl_map]
  refine List.foldl_ext _ _ _ fun g e he => ?_
  rw [hl.docs e.1 e.2 (Table.get?_eq_some_iff.mpr he)]

end SignedDocs
