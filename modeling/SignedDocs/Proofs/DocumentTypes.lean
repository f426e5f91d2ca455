import SignedDocs.Proofs.Acceptance
import SignedDocs.Proofs.KeptEntries
import SignedDocs.Proofs.ReferenceClosure

/-!
Looking for documents by their types.

* `FirstOfType`: the first document of a type, in the order of declaration.
* `documentOfType?_eq_some_iff`: it is the one that is found.
* `TypesDistinct`: no two documents have the same type. Nothing checks this.
* `documentOfType_of_own_type`: a document is found by its own type exactly if it is the first of
  that type; all documents are, exactly if their types are distinct.

Of two documents with the same type only the first one can be found (`replies_sharedType`).
-/

namespace SignedDocs

namespace Specification

/-- The first document of a type. -/
def FirstOfType (spec : Specification) (type : DocType) (name : String) : Prop :=
  ∃ before after, spec.documentNames = before ++ name :: after ∧
    spec.documentType name = .ok type ∧ ∀ n ∈ before, spec.documentType n ≠ .ok type

/-- No two documents have the same type. -/
def TypesDistinct (spec : Specification) : Prop :=
  ∀ a b type, spec.documentType a = .ok type → spec.documentType b = .ok type → a = b

variable {s : Settings} {root : Json} {spec : Specification} {name : String} {type : DocType}

theorem documentType_eq_ok_iff :
    spec.documentType name = .ok type ↔
      ∃ doc, spec.content.docs.get? name = some doc ∧ doc.type = type := by
  unfold documentType document
  cases spec.content.docs.get? name <;> simp [bind, Except.bind, pure, Except.pure]

theorem exists_documentType (h : name ∈ spec.documentNames) :
    ∃ type, spec.documentType name = .ok type := by
  obtain ⟨doc, hdoc⟩ := Table.mem_keys_iff.mp h
  exact ⟨doc.type, documentType_eq_ok_iff.mpr ⟨doc, hdoc, rfl⟩⟩

theorem documentType_of_mem {e : String × Document} (he : e ∈ spec.content.docs.entries) :
    spec.documentType e.1 = .ok type ↔ e.2.type.ids = type.ids := by
  rw [documentType_eq_ok_iff, Table.get?_eq_some_iff.mpr he, ← DocType.eq_iff_ids]
  simp

/-- The first document of a type, by the entries instead of their names. -/
theorem firstOfType_iff : spec.FirstOfType type name ↔
    ∃ before e after, spec.content.docs.entries = before ++ e :: after ∧ e.1 = name ∧
      e.2.type.ids = type.ids ∧ ∀ f ∈ before, f.2.type.ids ≠ type.ids := by
  constructor
  · rintro ⟨names, others, hsplit, htype, hbefore⟩
    obtain ⟨before, rest, hentries, rfl, hrest⟩ := List.map_eq_append_iff.mp hsplit
    obtain ⟨e, after, rfl, rfl, -⟩ := List.map_eq_cons_iff.mp hrest
    have hmem : ∀ f ∈ before ++ e :: after, f ∈ spec.content.docs.entries := by
      intro f hf
      rwa [hentries]
    refine ⟨before, e, after, hentries, rfl, ?_, ?_⟩
    · exact (documentType_of_mem (hmem e (by simp))).mp htype
    · intro f hf hids
      refine hbefore f.1 (List.mem_map.mpr ⟨f, hf, rfl⟩) ?_
      exact (documentType_of_mem (hmem f (List.mem_append_left _ hf))).mpr hids
  · rintro ⟨before, e, after, hentries, rfl, hids, hbefore⟩
    have hmem : ∀ f ∈ before ++ e :: after, f ∈ spec.content.docs.entries := by
      intro f hf
      rwa [hentries]
    refine ⟨before.map Prod.fst, after.map Prod.fst, ?_, ?_, ?_⟩
    · show spec.content.docs.entries.map Prod.fst = _
      rw [hentries, List.map_append, List.map_cons]
    · exact (documentType_of_mem (hmem e (by simp))).mpr hids
    · intro n hn htype
      obtain ⟨f, hf, rfl⟩ := List.mem_map.mp hn
      exact hbefore f hf ((documentType_of_mem (hmem f (List.mem_append_left _ hf))).mp htype)

/-- Whether the types are distinct can be seen from the list of them. -/
theorem typesDistinct_iff : spec.TypesDistinct ↔
    (spec.content.docs.entries.map fun e => e.2.type.ids).Nodup := by
  constructor
  · intro hdistinct
    refine List.Nodup.map_on ?_ (.of_map Prod.fst spec.content.docs.keys_nodup)
    intro e he f hf hids
    have hname : e.1 = f.1 := hdistinct e.1 f.1 f.2.type ((documentType_of_mem he).mpr hids)
      ((documentType_of_mem hf).mpr rfl)
    exact List.inj_on_of_nodup_map spec.content.docs.keys_nodup he hf hname
  · intro hnodup a b type ha hb
    obtain ⟨doc, hdoc, rfl⟩ := documentType_eq_ok_iff.mp ha
    obtain ⟨other, hother, htype⟩ := documentType_eq_ok_iff.mp hb
    have hsame : (a, doc) = (b, other) := List.inj_on_of_nodup_map hnodup
      (Table.get?_eq_some_iff.mp hdoc) (Table.get?_eq_some_iff.mp hother)
      (DocType.eq_iff_ids.mp htype.symm)
    exact congrArg Prod.fst hsame

instance (spec : Specification) : Decidable spec.TypesDistinct :=
  decidable_of_iff _ typesDistinct_iff.symm

/-! ## The document that is found -/

section Accepted

variable [JsonSchema.Engine] (h : ofJson s root = .ok spec)
include h

/-- Documents carry the names under which they are kept. -/
theorem name_of_mem_docs {e : String × Document} (he : e ∈ spec.content.docs.entries) :
    e.2.name = e.1 := by
  obtain ⟨d, hread, -, -, hcontent, -⟩ := exists_of_ofJson_ok h
  rw [hcontent, Draft.docs_primed] at he
  exact (Draft.labelled_of_read hread).docs e.1 e.2 (Table.get?_eq_some_iff.mpr he)

/-- The first document of a type is the one that is found, and none is found if there is none. -/
theorem documentOfType?_eq_some_iff :
    spec.documentOfType? type.ids = some name ↔ spec.FirstOfType type name := by
  unfold documentOfType?
  rw [Option.map_eq_some_iff, firstOfType_iff]
  constructor
  · rintro ⟨e, hfind, rfl⟩
    obtain ⟨hids, before, after, hentries, hbefore⟩ := List.find?_eq_some_iff_append.mp hfind
    refine ⟨before, e, after, hentries, ?_, beq_iff_eq.mp hids, ?_⟩
    · exact (name_of_mem_docs h (List.mem_of_find?_eq_some hfind)).symm
    · intro f hf
      simpa using hbefore f hf
  · rintro ⟨before, e, after, hentries, rfl, hids, hbefore⟩
    have hfind : spec.content.docs.entries.find? (fun e => e.2.type.ids == type.ids) = some e := by
      refine List.find?_eq_some_iff_append.mpr ⟨beq_iff_eq.mpr hids, before, after, hentries, ?_⟩
      intro f hf
      simpa using hbefore f hf
    exact ⟨e, hfind, name_of_mem_docs h (List.mem_of_find?_eq_some hfind)⟩

/-- For the type of a document some document is found. -/
theorem exists_firstOfType (htype : spec.documentType name = .ok type) :
    ∃ first, spec.FirstOfType type first := by
  obtain ⟨doc, hdoc, rfl⟩ := documentType_eq_ok_iff.mp htype
  have hsome : (spec.documentOfType? doc.type.ids).isSome := by
    unfold documentOfType?
    rw [Option.isSome_map, List.find?_isSome]
    exact ⟨(name, doc), Table.get?_eq_some_iff.mp hdoc, beq_self_eq_true _⟩
  obtain ⟨first, hfirst⟩ := Option.isSome_iff_exists.mp hsome
  exact ⟨first, (documentOfType?_eq_some_iff h).mp hfirst⟩

/-- Distinct types lead back to their documents, and only they do. -/
theorem forall_documentOfType_iff :
    (∀ name type, spec.documentType name = .ok type →
      spec.documentOfType? type.ids = some name) ↔ spec.TypesDistinct := by
  constructor
  · intro hfound a b type ha hb
    exact Option.some.inj ((hfound a type ha).symm.trans (hfound b type hb))
  · intro hdistinct name type htype
    obtain ⟨first, hfirst⟩ := exists_firstOfType h htype
    obtain ⟨-, -, -, hown, -⟩ := id hfirst
    rw [documentOfType?_eq_some_iff h, hdistinct name first type htype hown]
    exact hfirst

end Accepted

/-- Every document of an accepted specification has a type, and the first document of that type
is found by it. This is the document itself exactly if no earlier one has its type; so all
documents are found by their own types exactly if no two have the same type. -/
theorem documentOfType_of_own_type [JsonSchema.Engine] (h : ofJson s root = .ok spec) :
    (∀ name ∈ spec.documentNames, ∃ type first, spec.documentType name = .ok type ∧
      spec.documentOfType? type.ids = some first ∧ spec.FirstOfType type first) ∧
    (∀ name type, spec.documentOfType? type.ids = some name ↔ spec.FirstOfType type name) ∧
    ((∀ name type, spec.documentType name = .ok type →
      spec.documentOfType? type.ids = some name) ↔ spec.TypesDistinct) := by
  refine ⟨?_, fun name type => documentOfType?_eq_some_iff h, forall_documentOfType_iff h⟩
  intro name hname
  obtain ⟨type, htype⟩ := exists_documentType hname
  obtain ⟨first, hfirst⟩ := exists_firstOfType h htype
  exact ⟨type, first, htype, (documentOfType?_eq_some_iff h).mpr hfirst, hfirst⟩

/-- Letters, and replies of a type of their own. -/
def typedReplies : Json :=
  replies.replace ["docs", "reply", "type"] (.array [.string "b679ded3-0e7c-41ba-89f8-da62a17898ea",
    .string "7808d2ba-d511-40af-84e8-c0d1625fdfdc"])

/-- With distinct types the reply is found, too. -/
theorem typedReplies_found : ∃ spec, ofJson .default typedReplies = .ok spec ∧
    spec.TypesDistinct ∧ ∃ type, spec.documentType "reply" = .ok type ∧
      spec.documentOfType? type.ids = some "reply" := by
  have hload : ofJson .default typedReplies = .ok _ := rfl
  obtain ⟨-, -, hfound⟩ := documentOfType_of_own_type hload
  refine ⟨_, hload, ?distinct, _, rfl, hfound.mpr ?distinct "reply" _ rfl⟩
  decide

/-- Of two documents of one type only the first one is found. -/
theorem replies_sharedType : ∃ spec, ofJson .default replies = .ok spec ∧
    "reply" ∈ spec.documentNames ∧ ∃ type, spec.documentType "reply" = .ok type ∧
      spec.documentOfType? type.ids = some "letter" ∧
      spec.documentOfType? type.ids ≠ some "reply" := by
  refine ⟨_, rfl, by decide, _, rfl, rfl, ?_⟩
  decide

end Specification

end SignedDocs
