import Mathlib.Data.List.Forall2
import SignedDocs.Proofs.Coherence
import SignedDocs.Proofs.GroupSynthesis
import SignedDocs.Specification

/-!
Excluded fields show in nothing that is written.

* `FieldSet.SameUnlessExcluded`: two sets of fields with the same names in the same order,
  whose records may differ where both are excluded.
* `ofHeaders_congr`: a group depends on the live headers and on the names of all headers.
  The records of excluded headers are not read, not even by the check of members.
* `excluded_fields_hidden`: views, Markdown and synthesized definitions of two such sets
  are the same.
-/

namespace SignedDocs

/-! ## Sets that differ in excluded fields -/

section Fields

variable {α β : Type}

/-- The same field, or two excluded ones of the same name. -/
def Scoped.SameUnlessExcluded (rule : α → HeaderRule) (a b : Scoped α) : Prop :=
  a = b ∨ a.name = b.name ∧ (rule a.record).presence = .excluded ∧
    (rule b.record).presence = .excluded

/-- The same names in the same canonical order, and under each name the same field unless
it is excluded in both sets. -/
structure FieldSet.SameUnlessExcluded (rule : α → HeaderRule) (s t : FieldSet α) : Prop where
  names : s.names = t.names
  fields : ∀ name a b, s.get? name = some a → t.get? name = some b → a.SameUnlessExcluded rule b

variable {rule : α → HeaderRule}

/-- Seen as headers, the fields are still the same unless excluded. -/
theorem Scoped.SameUnlessExcluded.map {a b : Scoped α} (h : a.SameUnlessExcluded rule b) :
    (Scoped.map rule a).SameUnlessExcluded id (Scoped.map rule b) := by
  rcases h with rfl | ⟨hname, ha, hb⟩
  · exact Or.inl rfl
  · exact Or.inr ⟨hname, ha, hb⟩

namespace FieldSet

/-- Both sets have a name, or none has. -/
theorem SameUnlessExcluded.exists_get? {s t : FieldSet α} (h : s.SameUnlessExcluded rule t)
    {name : String} {a : Scoped α} (ha : s.get? name = some a) :
    ∃ b, t.get? name = some b ∧ a.SameUnlessExcluded rule b := by
  have hname := mem_names_of_get? ha
  rw [h.names] at hname
  obtain ⟨b, hb⟩ := exists_get?_of_mem_names hname
  exact ⟨b, hb, h.fields name a b ha hb⟩

theorem forall₂_filterMap {R : β → β → Prop} {f g : String → Option β} {names : List String}
    (h : ∀ n ∈ names, ∃ a b, f n = some a ∧ g n = some b ∧ R a b) :
    List.Forall₂ R (names.filterMap f) (names.filterMap g) := by
  induction names with
  | nil => exact List.Forall₂.nil
  | cons n names ih =>
    rw [List.forall_mem_cons] at h
    obtain ⟨⟨a, b, ha, hb, hab⟩, hrest⟩ := h
    rw [List.filterMap_cons_some ha, List.filterMap_cons_some hb]
    exact List.Forall₂.cons hab (ih hrest)

/-- The two sets stand side by side, field by field. -/
theorem SameUnlessExcluded.forall₂_all {s t : FieldSet α} (h : s.SameUnlessExcluded rule t) :
    List.Forall₂ (Scoped.SameUnlessExcluded rule) s.all t.all := by
  unfold all
  rw [← h.names]
  apply forall₂_filterMap
  intro name hname
  obtain ⟨a, ha⟩ := exists_get?_of_mem_names hname
  obtain ⟨b, hb, hab⟩ := h.exists_get? ha
  exact ⟨a, b, ha, hb, hab⟩

end FieldSet

/-- Without the excluded fields the lists are equal. -/
theorem filter_eq_of_forall₂ {xs ys : List (Scoped α)}
    (h : List.Forall₂ (Scoped.SameUnlessExcluded rule) xs ys) :
    xs.filter (fun f => !(rule f.record).presence.isExcluded) =
      ys.filter fun f => !(rule f.record).presence.isExcluded := by
  induction h with
  | nil => rfl
  | cons hab _ ih =>
    rw [List.filter_cons, List.filter_cons, ih]
    rcases hab with rfl | ⟨-, ha, hb⟩
    · rfl
    · rw [ha, hb]
      rfl

/-- What does not tell two excluded fields of a name apart does not tell the lists apart. -/
theorem map_eq_of_forall₂ {F : Scoped α → β} (hF : ∀ a b, a.SameUnlessExcluded rule b → F a = F b)
    {xs ys : List (Scoped α)} (h : List.Forall₂ (Scoped.SameUnlessExcluded rule) xs ys) :
    xs.map F = ys.map F := by
  rw [← List.forall₂_eq_eq_eq, List.forall₂_map_left_iff, List.forall₂_map_right_iff]
  exact h.imp hF

end Fields

/-! ## Groups -/

namespace Cddl

namespace Group

variable {headers others : List Header}

theorem checkMembers_congr (hnames : headers.map Scoped.name = others.map Scoped.name)
    (h : Header) : checkMembers headers h = checkMembers others h := by
  have hany : ∀ (hs : List Header) (m : String),
      hs.any (fun g => g.name == m) = (hs.map Scoped.name).any (· == m) := by
    intro hs m
    rw [List.any_map]
    rfl
  unfold checkMembers
  simp only [hany, hnames]

/-- A group depends on the live headers, and beyond them on names only. -/
theorem ofHeaders_congr (hlive : live headers = live others)
    (hnames : headers.map Scoped.name = others.map Scoped.name) (formats : Formats) :
    ofHeaders headers formats = ofHeaders others formats := by
  have hplain : plainOf headers formats = plainOf others formats := by
    funext h
    unfold plainOf
    rw [checkMembers_congr hnames, hlive]
  have hcircles : circles headers = circles others := by
    unfold circles
    rw [hlive]
  unfold ofHeaders
  rw [hlive, hplain, hcircles]

end Group

/-- Excluded fields are the same to a synthesis, its failures included. -/
theorem synthesize_congr {α : Type} {rule : α → HeaderRule} {s t : FieldSet α}
    (h : s.SameUnlessExcluded rule t) (name : String) (base : Option Rule) (formats : Formats) :
    synthesize name base (s.map rule).all formats =
      synthesize name base (t.map rule).all formats := by
  have hheaders : List.Forall₂ (Scoped.SameUnlessExcluded id) (s.map rule).all (t.map rule).all := by
    rw [FieldSet.all_map, FieldSet.all_map, List.forall₂_map_left_iff, List.forall₂_map_right_iff]
    exact h.forall₂_all.imp fun _ _ => Scoped.SameUnlessExcluded.map
  have hlive : Group.live (s.map rule).all = Group.live (t.map rule).all :=
    filter_eq_of_forall₂ hheaders
  have hname : ∀ a b : Scoped HeaderRule, a.SameUnlessExcluded id b → a.name = b.name := by
    rintro a b (rfl | ⟨hab, -⟩)
    · rfl
    · exact hab
  unfold synthesize
  rw [Group.ofHeaders_congr hlive (map_eq_of_forall₂ hname hheaders)]

end Cddl

/-! ## Views and Markdown -/

namespace FieldView

variable {a b : Scoped MetadataField} (referenceFormat : String)

theorem detail_of_excluded (h : a.record.presence = .excluded) :
    (ofField a referenceFormat).detail = none := by
  unfold ofField
  rw [h]
  rfl

theorem detail_congr (h : a.SameUnlessExcluded MetadataField.toHeaderRule b) :
    (ofField a referenceFormat).detail = (ofField b referenceFormat).detail := by
  rcases h with rfl | ⟨-, ha, hb⟩
  · rfl
  · rw [detail_of_excluded _ ha, detail_of_excluded _ hb]

/-- An excluded field is written with its name, and that it is excluded. -/
theorem markdown_congr (h : a.SameUnlessExcluded MetadataField.toHeaderRule b)
    (ids : Option String) :
    (ofField a referenceFormat).markdown ids = (ofField b referenceFormat).markdown ids := by
  have hopening : (ofField a referenceFormat).opening = (ofField b referenceFormat).opening := by
    rcases h with rfl | ⟨hname, ha, hb⟩
    · rfl
    · unfold opening ofField
      rw [hname, ha, hb]
  have hname : (ofField a referenceFormat).name = (ofField b referenceFormat).name := by
    rcases h with rfl | ⟨hname, -⟩
    · rfl
    · exact hname
  unfold markdown
  rw [hopening, detail_congr referenceFormat h, hname]

end FieldView

namespace Specification

variable {x y : Specification} {s t : FieldSet MetadataField}

/-- The global fields are all written, the excluded ones without detail. -/
theorem metadataMarkdown_none_congr (h : s.SameUnlessExcluded MetadataField.toHeaderRule t)
    (hformat : x.settings.referenceFormat = y.settings.referenceFormat)
    (hx : x.content.metadata.headers = s) (hy : y.content.metadata.headers = t) :
    x.metadataMarkdown none = y.metadataMarkdown none := by
  have hfields : x.fieldsMarkdown s.all none = y.fieldsMarkdown t.all none := by
    unfold fieldsMarkdown
    rw [hformat, map_eq_of_forall₂ (fun _ _ hab => FieldView.markdown_congr _ hab none) h.forall₂_all]
  show (pure (x.fieldsMarkdown x.content.metadata.headers.all none) : Except Failure String) =
    pure (y.fieldsMarkdown y.content.metadata.headers.all none)
  rw [hx, hy, hfields]

/-- Of a document the excluded fields are not written at all. -/
theorem metadataMarkdown_some_congr (h : s.SameUnlessExcluded MetadataField.toHeaderRule t)
    (hformat : x.settings.referenceFormat = y.settings.referenceFormat) {doc : String}
    {a b : Document} (ha : x.content.docs.get? doc = some a) (hb : y.content.docs.get? doc = some b)
    (htype : a.type = b.type) (hs : a.metadata = s) (ht : b.metadata = t) :
    x.metadataMarkdown (some doc) = y.metadataMarkdown (some doc) := by
  have hlive : a.metadata.all.filter (fun f => !f.record.presence.isExcluded) =
      b.metadata.all.filter fun f => !f.record.presence.isExcluded := by
    rw [hs, ht]
    exact filter_eq_of_forall₂ h.forall₂_all
  have hdocX : x.document doc = .ok a := by
    unfold document
    rw [ha]
  have hdocY : y.document doc = .ok b := by
    unfold document
    rw [hb]
  unfold metadataMarkdown
  simp only [hdocX, hdocY]
  show Except.ok (x.fieldsMarkdown _ (some a.type.markdown)) =
    Except.ok (y.fieldsMarkdown _ (some b.type.markdown))
  unfold fieldsMarkdown
  rw [hlive, hformat, htype]

end Specification

/-- Nothing is told of excluded fields but their names: two sets of metadata fields that differ
in excluded fields give the same details, and none of an excluded field, the same Markdown
as global fields and as fields of a document, and the same synthesized definition or the
same failure of the synthesis, as two such sets of headers do. -/
theorem excluded_fields_hidden {s t : FieldSet MetadataField} {p q : FieldSet ProtectedHeader}
    (hfields : s.SameUnlessExcluded MetadataField.toHeaderRule t)
    (hheaders : p.SameUnlessExcluded ProtectedHeader.toHeaderRule q) :
    (∀ referenceFormat name a b, s.get? name = some a → t.get? name = some b →
      (FieldView.ofField a referenceFormat).detail = (FieldView.ofField b referenceFormat).detail ∧
      (a.record.presence = .excluded → (FieldView.ofField a referenceFormat).detail = none ∧
        (FieldView.ofField b referenceFormat).detail = none)) ∧
    (∀ x y : Specification, x.settings.referenceFormat = y.settings.referenceFormat →
      (x.content.metadata.headers = s → y.content.metadata.headers = t →
        x.metadataMarkdown none = y.metadataMarkdown none) ∧
      ∀ doc a b, x.content.docs.get? doc = some a → y.content.docs.get? doc = some b →
        a.type = b.type → a.metadata = s → b.metadata = t →
          x.metadataMarkdown (some doc) = y.metadataMarkdown (some doc)) ∧
    ∀ name base formats,
      Cddl.synthesize name base (s.map MetadataField.toHeaderRule).all formats =
        Cddl.synthesize name base (t.map MetadataField.toHeaderRule).all formats ∧
      Cddl.synthesize name base (p.map ProtectedHeader.toHeaderRule).all formats =
        Cddl.synthesize name base (q.map ProtectedHeader.toHeaderRule).all formats := by
  refine ⟨?_, ?_, ?_⟩
  · intro referenceFormat name a b ha hb
    have hdetail := FieldView.detail_congr referenceFormat (hfields.fields name a b ha hb)
    refine ⟨hdetail, ?_⟩
    intro hexcluded
    have hnone := FieldView.detail_of_excluded referenceFormat hexcluded
    exact ⟨hnone, hdetail.symm.trans hnone⟩
  · intro x y hformat
    refine ⟨Specification.metadataMarkdown_none_congr hfields hformat, ?_⟩
    intro doc a b ha hb htype hs ht
    exact Specification.metadataMarkdown_some_congr hfields hformat ha hb htype hs ht
  · intro name base formats
    exact ⟨Cddl.synthesize_congr hfields name base formats,
      Cddl.synthesize_congr hheaders name base formats⟩

/-- A sender that excludes the recipient, and the recipient. -/
def correspondents {α : Type} (sender recipient : α) : FieldSet α :=
  .ofTable (Table.ofList [("from", sender), ("to", recipient)]) ["to"] (some "letter")

theorem correspondents_same {α : Type} {rule : α → HeaderRule} (sender : α) {a b : α}
    (ha : (rule a).presence = .excluded) (hb : (rule b).presence = .excluded) :
    (correspondents sender a).SameUnlessExcluded rule (correspondents sender b) := by
  refine ⟨rfl, ?_⟩
  intro name x y hx hy
  have hget : ∀ c : α, (correspondents sender c).get? name =
      if name = "to" then some ⟨name, some "letter", c⟩
      else if name = "from" then some ⟨name, some "letter", sender⟩ else none := by
    intro c
    unfold correspondents Table.ofList Table.extend
    rw [FieldSet.get?_ofTable, List.foldl_cons, List.foldl_cons, List.foldl_nil, Table.get?_insert,
      Table.get?_insert]
    split
    · rfl
    · split <;> rfl
  rw [hget] at hx hy
  by_cases hname : name = "to"
  · rw [if_pos hname] at hx hy
    cases hx
    cases hy
    exact Or.inr ⟨rfl, ha, hb⟩
  · rw [if_neg hname] at hx hy
    rw [hx] at hy
    cases hy
    exact Or.inl rfl

/-- The specification with these global fields, which a letter has, too. -/
def Specification.withFields (spec : Specification) (letter : Document)
    (fields : FieldSet MetadataField) : Specification :=
  { spec with content := { spec.content with
    metadata := { spec.content.metadata with headers := fields }
    docs := spec.content.docs.insert "letter" { letter with metadata := fields } } }

/-- Recipients that differ in everything but in being excluded. -/
theorem correspondents_hidden :
    let sender : MetadataField := ⟨⟨none, .required, "name", ["to"]⟩, "", none, [], none, []⟩
    let address : MetadataField :=
      ⟨⟨none, .excluded, "address", ["from"]⟩, "where to", some "secret", [], none, []⟩
    let person : MetadataField :=
      ⟨⟨some (.int 7), .excluded, "name", []⟩, "to whom", none, ["person"], some true, ["from"]⟩
    let header := fun f : MetadataField => ProtectedHeader.mk f.toHeaderRule f.description []
    address ≠ person ∧
    (correspondents sender address).SameUnlessExcluded MetadataField.toHeaderRule
      (correspondents sender person) ∧
    (FieldView.ofField ⟨"to", some "letter", address⟩ "name").detail = none ∧
    (∀ (spec : Specification) (letter : Document) (doc : Option String),
      doc = none ∨ doc = some "letter" →
        (spec.withFields letter (correspondents sender address)).metadataMarkdown doc =
          (spec.withFields letter (correspondents sender person)).metadataMarkdown doc) ∧
    ∀ formats,
      Cddl.synthesize "letter" none
          ((correspondents sender address).map MetadataField.toHeaderRule).all formats =
        Cddl.synthesize "letter" none
          ((correspondents sender person).map MetadataField.toHeaderRule).all formats ∧
      Cddl.synthesize "letter" none
          ((correspondents (header sender) (header address)).map
            ProtectedHeader.toHeaderRule).all formats =
        Cddl.synthesize "letter" none
          ((correspondents (header sender) (header person)).map
            ProtectedHeader.toHeaderRule).all formats := by
  intro sender address person header
  have hfields : (correspondents sender address).SameUnlessExcluded MetadataField.toHeaderRule
      (correspondents sender person) := correspondents_same sender rfl rfl
  have hheaders : (correspondents (header sender) (header address)).SameUnlessExcluded
      ProtectedHeader.toHeaderRule (correspondents (header sender) (header person)) :=
    correspondents_same (header sender) rfl rfl
  obtain ⟨hviews, hmarkdown, hsyntheses⟩ := excluded_fields_hidden hfields hheaders
  obtain ⟨-, hnone⟩ := hviews "name" "to" ⟨"to", some "letter", address⟩
    ⟨"to", some "letter", person⟩ rfl rfl
  refine ⟨by decide, hfields, (hnone rfl).1, ?_, fun formats => hsyntheses "letter" none formats⟩
  intro spec letter doc hdoc
  have hletter : ∀ fields, (spec.withFields letter fields).content.docs.get? "letter" =
      some { letter with metadata := fields } := by
    intro fields
    show (spec.content.docs.insert _ _).get? _ = _
    rw [Table.get?_insert, if_pos rfl]
  obtain ⟨hglobal, hofDocument⟩ :=
    hmarkdown (spec.withFields letter (correspondents sender address))
      (spec.withFields letter (correspondents sender person)) rfl
  rcases hdoc with rfl | rfl
  · exact hglobal rfl rfl
  · exact hofDocument "letter" _ _ (hletter _) (hletter _) rfl rfl rfl

end SignedDocs
