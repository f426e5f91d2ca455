import SignedDocs.JsonSchema.MetaSchema
import SignedDocs.Proofs.Acceptance
import SignedDocs.Proofs.Outcomes
import SignedDocs.Proofs.References
import SignedDocs.Proofs.TableExtension

/-!
Following references: in an accepted specification every reference, taken forwards or
backwards, leads from a document to documents.

* `mem_keys_referencedBy_iff`: in any graph a name has sources, maybe none, if it is a
  document or a target. Targets that are no documents would be met here.
* `Coherent.mem_keys_of_target`: a coherent draft has no such targets.
* `references_closed`: both questions are answered for documents and for nothing else,
  the answers are documents, and so any number of steps can be taken.
-/

namespace SignedDocs

/-! ## Names with sources -/

namespace ReferenceGraph

theorem mem_keys_foldl_addSource {doc : String} {targets : List String} {sources : Table NameSet}
    {n : String} :
    n ∈ (targets.foldl (addSource doc) sources).keys ↔ n ∈ sources.keys ∨ n ∈ targets := by
  induction targets generalizing sources with
  | nil => simp
  | cons target targets ih =>
    have hstep : n ∈ (addSource doc sources target).keys ↔ n = target ∨ n ∈ sources.keys :=
      Table.mem_keys_insert
    rw [List.foldl_cons, ih, hstep, List.mem_cons]
    constructor
    · rintro ((h | h) | h)
      · exact Or.inr (Or.inl h)
      · exact Or.inl h
      · exact Or.inr (Or.inr h)
    · rintro (h | h | h)
      · exact Or.inl (Or.inr h)
      · exact Or.inl (Or.inl h)
      · exact Or.inr h

/-- Each document adds its targets to the names that have sources. -/
theorem mem_keys_referencedBy_foldl {referenceFormat : String} {es : List (String × Document)}
    {g : ReferenceGraph} {n : String} :
    n ∈ (es.foldl (fun g e => g.addTargets e.1 (targetsOf referenceFormat e.2)) g).referencedBy.keys ↔
      n ∈ g.referencedBy.keys ∨ ∃ e ∈ es, n ∈ targetsOf referenceFormat e.2 := by
  induction es generalizing g with
  | nil => simp
  | cons e es ih =>
    have hstep : n ∈ (g.addTargets e.1 (targetsOf referenceFormat e.2)).referencedBy.keys ↔
        n ∈ g.referencedBy.keys ∨ n ∈ targetsOf referenceFormat e.2 := mem_keys_foldl_addSource
    rw [List.foldl_cons, ih, hstep, or_assoc, List.exists_mem_cons_iff]

/-- Sources, maybe none, are known of the documents and of their targets. -/
theorem mem_keys_referencedBy_iff {docs : Documents} {referenceFormat n : String} :
    n ∈ (ofDocuments docs referenceFormat).referencedBy.keys ↔
      n ∈ docs.keys ∨ ∃ name doc, docs.get? name = some doc ∧ n ∈ targetsOf referenceFormat doc := by
  have hedgeless : n ∈ (edgeless docs).referencedBy.keys ↔ n ∈ docs.keys := by
    have hget := Table.get?_mapValues docs (fun _ _ => NameSet.empty) n
    rw [Table.mem_keys_iff, Table.mem_keys_iff]
    show (∃ v, (docs.mapValues fun _ _ => NameSet.empty).get? n = some v) ↔ _
    rw [hget]
    cases docs.get? n <;> simp
  unfold ofDocuments
  rw [mem_keys_referencedBy_foldl, hedgeless]
  refine or_congr Iff.rfl ?_
  constructor
  · rintro ⟨e, he, ht⟩
    exact ⟨e.1, e.2, Table.get?_eq_some_iff.mpr he, ht⟩
  · rintro ⟨name, doc, hdoc, ht⟩
    exact ⟨(name, doc), Table.get?_eq_some_iff.mp hdoc, ht⟩

end ReferenceGraph

/-! ## Coherent drafts -/

namespace Draft

variable [JsonSchema.Engine] {d : Draft} {s : Settings}

/-- The checks look at the same fields as the graph, those of the reference format. -/
theorem Coherent.mem_keys_of_target (h : d.Coherent s) {name target : String} {doc : Document}
    (hdoc : d.docs.get? name = some doc)
    (ht : target ∈ ReferenceGraph.targetsOf s.referenceFormat doc) : target ∈ d.docs.keys := by
  obtain ⟨field, f, hf, hformat, htarget⟩ := ReferenceGraph.mem_targetsOf.mp ht
  exact h.docTargets name doc hdoc field f hf hformat target htarget

/-- The graph of a coherent draft says of a document, and of nothing else, what refers to it. -/
theorem Coherent.mem_keys_referencedBy_iff (h : d.Coherent s) {n : String} :
    n ∈ (ReferenceGraph.ofDocuments d.docs s.referenceFormat).referencedBy.keys ↔
      n ∈ d.docs.keys := by
  rw [ReferenceGraph.mem_keys_referencedBy_iff]
  constructor
  · rintro (hn | ⟨name, doc, hdoc, ht⟩)
    · exact hn
    · exact h.mem_keys_of_target hdoc ht
  · exact Or.inl

/-- Both ends of an edge are documents. -/
theorem Coherent.mem_keys_of_lists (h : d.Coherent s) {a b : String}
    (hab : (ReferenceGraph.ofDocuments d.docs s.referenceFormat).references.Lists a b) :
    a ∈ d.docs.keys ∧ b ∈ d.docs.keys := by
  obtain ⟨targets, htargets, hb⟩ := hab
  have hreferences := ReferenceGraph.references_ofDocuments d.docs s.referenceFormat a
  obtain ⟨doc, hdoc, rfl⟩ := Option.map_eq_some_iff.mp (hreferences.symm.trans htargets)
  exact ⟨Table.mem_keys_iff.mpr ⟨doc, hdoc⟩, h.mem_keys_of_target hdoc hb⟩

end Draft

/-! ## Steps -/

/-- Along a reference, or against it. -/
inductive Direction where
  | forwards
  | backwards
deriving DecidableEq, Repr

namespace Specification

/-- What is one step away from a document. -/
def neighbours (spec : Specification) : Direction → String → Except Failure NameSet
  | .forwards => spec.referencesOf
  | .backwards => spec.referencing

/-- Where some steps lead, one after the other, on all ways that there are. -/
def follow (spec : Specification) : List Direction → String → Except Failure (List String)
  | [], doc => pure [doc]
  | direction :: rest, doc => do
    let next ← spec.neighbours direction doc
    let ends ← next.toList.mapM (spec.follow rest)
    pure ends.flatten

variable {s : Settings} {root : Json} {spec : Specification}

section Accepted

variable [JsonSchema.Engine] (h : ofJson s root = .ok spec)
include h

/-- One step from a document leads to documents. -/
theorem exists_neighbours (direction : Direction) {name : String}
    (hname : name ∈ spec.documentNames) :
    ∃ next, spec.neighbours direction name = .ok next ∧ ∀ n ∈ next, n ∈ spec.documentNames := by
  obtain ⟨d, -, hcoherent, -, hcontent, hgraph⟩ := exists_of_ofJson_ok h
  have hnames : spec.documentNames = d.docs.keys := by
    show spec.content.docs.keys = _
    rw [hcontent, Draft.docs_primed]
  rw [hnames] at hname ⊢
  cases direction with
  | forwards =>
    obtain ⟨doc, hdoc⟩ := Table.mem_keys_iff.mp hname
    have hreferences : spec.graph.references? name =
        some (ReferenceGraph.targetsOf s.referenceFormat doc) := by
      rw [hgraph, ReferenceGraph.references_ofDocuments, hdoc]
      rfl
    refine ⟨_, ?_, fun n hn => hcoherent.mem_keys_of_target hdoc hn⟩
    show spec.referencesOf name = _
    unfold referencesOf
    rw [hreferences]
  | backwards =>
    rw [← hcoherent.mem_keys_referencedBy_iff, ← hgraph] at hname
    obtain ⟨sources, hsources⟩ := Table.mem_keys_iff.mp hname
    have hreferencing : spec.graph.referencedBy? name = some sources := hsources
    refine ⟨sources, ?_, ?_⟩
    · show spec.referencing name = _
      unfold referencing
      rw [hreferencing]
    · intro n hn
      rw [hgraph] at hsources
      have hedge := (ReferenceGraph.symmetric_ofDocuments d.docs s.referenceFormat n name).mpr
        ⟨sources, hsources, hn⟩
      exact (hcoherent.mem_keys_of_lists hedge).1

/-- Nothing is a step away from what is no document. -/
theorem neighbours_of_not_mem (direction : Direction) {name : String}
    (hname : name ∉ spec.documentNames) :
    spec.neighbours direction name = .error (.noDocument name) := by
  obtain ⟨d, -, hcoherent, -, hcontent, hgraph⟩ := exists_of_ofJson_ok h
  have hdocs : name ∉ d.docs.keys := by
    intro hn
    have hmem : name ∈ spec.content.docs.keys := by rwa [hcontent, Draft.docs_primed]
    exact hname hmem
  cases direction with
  | forwards =>
    have hreferences : spec.graph.references? name = none := by
      rw [hgraph, ReferenceGraph.references_ofDocuments, Table.get?_eq_none_iff.mpr hdocs]
      rfl
    show spec.referencesOf name = _
    unfold referencesOf
    rw [hreferences]
  | backwards =>
    have hreferencing : spec.graph.referencedBy? name = none := by
      rw [← hcoherent.mem_keys_referencedBy_iff, ← hgraph] at hdocs
      exact Table.get?_eq_none_iff.mpr hdocs
    show spec.referencing name = _
    unfold referencing
    rw [hreferencing]

/-- A step keeps to documents, and so does any number of them. -/
theorem exists_follow (steps : List Direction) {name : String}
    (hname : name ∈ spec.documentNames) :
    ∃ ends, spec.follow steps name = .ok ends ∧ ∀ n ∈ ends, n ∈ spec.documentNames := by
  induction steps generalizing name with
  | nil =>
    refine ⟨[name], rfl, ?_⟩
    intro n hn
    rwa [List.mem_singleton.mp hn]
  | cons direction rest ih =>
    obtain ⟨next, hnext, hdocs⟩ := exists_neighbours h direction hname
    have hrest : ∀ n ∈ next.toList, ∃ ends, spec.follow rest n = .ok ends := by
      intro n hn
      obtain ⟨ends, hends, -⟩ := ih (hdocs n hn)
      exact ⟨ends, hends⟩
    obtain ⟨all, hall⟩ := mapM_ok_iff.mpr hrest
    refine ⟨all.flatten, ?_, ?_⟩
    · unfold follow
      rw [hnext]
      show (next.toList.mapM (spec.follow rest) >>= fun ends => pure ends.flatten) = _
      rw [hall]
      rfl
    · intro n hn
      obtain ⟨ends, hends, hmem⟩ := List.mem_flatten.mp hn
      obtain ⟨m, hm, hfollow⟩ := exists_of_mem_mapM hall hends
      obtain ⟨ends', hends', hclosed⟩ := ih (hdocs m hm)
      rw [hfollow] at hends'
      cases hends'
      exact hclosed n hmem

/-- What refers to a name is read from all fields of the reference format, excluded or not. -/
theorem mem_referencing_iff {doc target : String} {sources : NameSet}
    (hsources : spec.referencing target = .ok sources) {d : Document}
    (hdoc : spec.content.docs.get? doc = some d) :
    doc ∈ sources ↔ ∃ field f, d.metadata.declared.get? field = some f ∧
      f.format = spec.settings.referenceFormat ∧ target ∈ f.targets := by
  obtain ⟨draft, -, -, hsettings, hcontent, hgraph⟩ := exists_of_ofJson_ok h
  have hstored : spec.graph.referencedBy.get? target = some sources := by
    unfold referencing ReferenceGraph.referencedBy? at hsources
    cases hget : spec.graph.referencedBy.get? target with
    | none =>
      rw [hget] at hsources
      cases hsources
    | some names =>
      rw [hget] at hsources
      cases hsources
      rfl
  have hlists : doc ∈ sources ↔ spec.graph.referencedBy.Lists target doc := by
    unfold Table.Lists
    rw [hstored]
    simp
  have hforwards : spec.graph.references.Lists doc target ↔
      target ∈ ReferenceGraph.targetsOf s.referenceFormat d := by
    have hreferences : spec.graph.references.get? doc =
        some (ReferenceGraph.targetsOf s.referenceFormat d) := by
      rw [hcontent, Draft.docs_primed] at hdoc
      have hall := ReferenceGraph.references_ofDocuments draft.docs s.referenceFormat doc
      rw [hdoc, ← hgraph] at hall
      exact hall
    unfold Table.Lists
    rw [hreferences]
    simp
  have hsymmetric : spec.graph.Symmetric := by
    rw [hgraph]
    exact ReferenceGraph.symmetric_ofDocuments _ _
  rw [hlists, ← hsymmetric doc target, hforwards, ReferenceGraph.mem_targetsOf, hsettings]

end Accepted

/-- References of an accepted specification, forwards and backwards: they are known of every
document and of nothing else, they are documents themselves, and so they can be followed
for any number of steps. -/
theorem references_closed [JsonSchema.Engine] (h : ofJson s root = .ok spec) (name : String) :
    (name ∈ spec.documentNames →
      (∃ targets, spec.referencesOf name = .ok targets ∧ ∀ n ∈ targets, n ∈ spec.documentNames) ∧
      (∃ sources, spec.referencing name = .ok sources ∧ ∀ n ∈ sources, n ∈ spec.documentNames) ∧
      ∀ steps, ∃ ends, spec.follow steps name = .ok ends ∧ ∀ n ∈ ends, n ∈ spec.documentNames) ∧
    (name ∉ spec.documentNames →
      spec.referencesOf name = .error (.noDocument name) ∧
      spec.referencing name = .error (.noDocument name)) := by
  constructor
  · intro hname
    exact ⟨exists_neighbours h .forwards hname, exists_neighbours h .backwards hname,
      fun steps => exists_follow h steps hname⟩
  · intro hname
    exact ⟨neighbours_of_not_mem h .forwards hname, neighbours_of_not_mem h .backwards hname⟩

/-- Letters, and replies to letters or to other replies. -/
def replies : Json :=
  let empty := Json.object []
  let versions := Json.array [.object [("version", .string "1"), ("modified", .string "2024-01-01"),
    ("changes", .string "")]]
  let document (fields : List (String × Json)) := Json.object [
    ("type", .array [.string "7808d2ba-d511-40af-84e8-c0d1625fdfdc"]), ("headers", empty),
    ("metadata", .object fields), ("signers", .object [("roles", empty)]), ("authors", empty),
    ("versions", versions)]
  let recipient := ("to", Json.object [("description", .string ""), ("required", .string "yes"),
    ("format", .string "Document Reference"),
    ("type", .array [.string "reply", .string "letter"])])
  .object [("authors", empty), ("base_types", empty),
    ("cddlDefinitions", .object [("reference", .object [("def", .string "bytes"),
      ("requires", .array [])])]),
    ("contentTypes", empty),
    ("copyright", .object [("publisher", .string ""), ("copyright", .string ""),
      ("license", .string ""), ("created", .string "2024-01-01"), ("versions", versions)]),
    ("cose", .object [("headerFormats", empty), ("headers", empty), ("headersOrder", .array []),
      ("signature_headers", empty)]),
    ("docClusters", empty),
    ("docs", .object [("letter", document []), ("reply", document [recipient])]),
    ("documentationLinks", empty), ("encodingTypes", empty), ("linkAKA", empty),
    ("metadata", .object [("headers", empty), ("formats", .object [("Document Reference", .object [
      ("cddl", .string "reference"), ("description", .string "")])]), ("order", .array [])])]

/-- From a reply two steps forwards and one backwards lead to replies again. -/
theorem replies_followed : ∃ spec, ofJson .default replies = .ok spec ∧
    "reply" ∈ spec.documentNames ∧ "postcard" ∉ spec.documentNames ∧
    spec.referencing "postcard" = .error (.noDocument "postcard") ∧
    ∃ ends, spec.follow [.forwards, .forwards, .backwards] "reply" = .ok ends ∧
      ends = ["reply", "reply"] ∧ ∀ n ∈ ends, n ∈ spec.documentNames := by
  have hload : ofJson .default replies = .ok _ := rfl
  have hpostcard := (references_closed hload "postcard").2 (by decide)
  obtain ⟨-, -, hfollow⟩ := (references_closed hload "reply").1 (by decide)
  obtain ⟨ends, hends, hclosed⟩ := hfollow [.forwards, .forwards, .backwards]
  refine ⟨_, hload, by decide, by decide, hpostcard.2, ends, hends, ?_, hclosed⟩
  cases hends
  rfl

end Specification

end SignedDocs
