import SignedDocs.Draft.Checks
import SignedDocs.JsonSchema.MetaSchema
import SignedDocs.Proofs.Labels
import SignedDocs.Proofs.ReportHistory
import SignedDocs.Proofs.WebAddress

/-!
Coherence: what the checks across a specification ask for.

* `Draft.Coherent`: all conditions, said without reports.
* Each check has no error exactly if its own conditions hold.
* `read_check_clean_iff`: a specification that was read passes all checks exactly if
  it is coherent.
-/

namespace SignedDocs

/-! ## Conditions -/

/-- A header of the set excludes a name. -/
def FieldSet.Excludes (hs : FieldSet HeaderRule) (name member : String) : Prop :=
  ∃ r, hs.declared.get? name = some r ∧ member ∈ r.exclusive

/-- Headers of one scope: their formats exist, and exclusion is a relation within the
scope that goes both ways and never concerns a header itself. -/
structure FieldSet.Sound (hs : FieldSet HeaderRule) (formats : Formats) : Prop where
  formats : ∀ name r, hs.declared.get? name = some r → r.format ∈ formats.keys
  irreflexive : ∀ name, ¬hs.Excludes name name
  symmetric : ∀ name member, hs.Excludes name member → hs.Excludes member name
  within : ∀ name member, hs.Excludes name member → member ∈ hs.declared.keys

/-- A reference leads to documents only. -/
def MetadataField.LeadsInto (f : MetadataField) (referenceFormat : String) (docs : Documents) :
    Prop :=
  f.format = referenceFormat → ∀ t ∈ f.targets, t ∈ docs.keys

/-- The fields have one of this name that is not excluded. -/
def FieldSet.Admits (fs : FieldSet MetadataField) (field : String) : Prop :=
  ∃ f, fs.declared.get? field = some f ∧ f.presence ≠ .excluded

/-- A linked reference of a field is a reference beside it, and the documents it leads
to have the field, too. -/
def Documents.Links (docs : Documents) (referenceFormat : String) (fs : FieldSet MetadataField)
    (field linked : String) : Prop :=
  ∃ r, fs.declared.get? linked = some r ∧ r.format = referenceFormat ∧
    ∀ t ∈ r.targets, ∀ doc, docs.get? t = some doc → doc.metadata.Admits field

/-- There are no examples, or their schema is elsewhere, or it can be used and they
match it. -/
inductive Payload.Conforms [JsonSchema.Engine] (p : Payload) : Prop where
  | noExamples (h : p.examples = [])
  | elsewhere (url : String) (h : p.schema = some (.address url))
  | matching (schema : Table Json) (h : p.schema = some (.inline schema))
      (usable : JsonSchema.Engine.unusable? (Json.ofTable schema) = none)
      (fits : ∀ e ∈ p.examples, JsonSchema.Engine.mismatches (Json.ofTable schema) e.value = [])

namespace Draft

/-- A declared definition, or one that is still to be synthesized. -/
def Knows (d : Draft) (s : Settings) (name : String) : Prop :=
  name ∈ d.cddl.declared.keys ∨ name ∈ s.synthesizedNames

/-- What has to hold across the entries of a specification: change logs and types are
not empty, every scope is sound, references and linked references lead somewhere,
definitions are known, clusters are apart, links and examples are well-formed. -/
structure Coherent [JsonSchema.Engine] (d : Draft) (s : Settings) : Prop where
  types : ∀ name doc, d.docs.get? name = some doc → doc.type.ids ≠ []
  copyrightVersions : d.copyright.versions ≠ []
  versions : ∀ name doc, d.docs.get? name = some doc → doc.versions ≠ []
  metadata : (d.metadata.headers.map MetadataField.toHeaderRule).Sound d.metadata.formats
  headers : (d.cose.headers.map ProtectedHeader.toHeaderRule).Sound d.cose.formats
  signature : (d.cose.signature.map ProtectedHeader.toHeaderRule).Sound d.cose.formats
  docMetadata : ∀ name doc, d.docs.get? name = some doc →
    (doc.metadata.map MetadataField.toHeaderRule).Sound d.metadata.formats
  docHeaders : ∀ name doc, d.docs.get? name = some doc →
    (doc.headers.map ProtectedHeader.toHeaderRule).Sound d.cose.formats
  targets : ∀ field f, d.metadata.headers.declared.get? field = some f →
    f.LeadsInto s.referenceFormat d.docs
  docTargets : ∀ name doc, d.docs.get? name = some doc →
    ∀ field f, doc.metadata.declared.get? field = some f → f.LeadsInto s.referenceFormat d.docs
  linkedRefs : ∀ field f, d.metadata.headers.declared.get? field = some f →
    ∀ l ∈ f.linkedRefs, l ∈ d.metadata.headers.declared.keys
  docLinkedRefs : ∀ name doc, d.docs.get? name = some doc →
    ∀ field f, doc.metadata.declared.get? field = some f → f.presence ≠ .excluded →
      ∀ l ∈ f.linkedRefs, Documents.Links d.docs s.referenceFormat doc.metadata field l
  requirements : ∀ name rule, d.cddl.declared.get? name = some rule →
    ∀ n ∈ rule.requires, d.Knows s n
  metadataTypes : ∀ name f, d.metadata.formats.get? name = some f → d.Knows s f.cddl
  headerTypes : ∀ name f, d.cose.formats.get? name = some f → d.Knows s f.cddl
  members : ∀ name docs, d.clusters.declared.get? name = some docs →
    ∀ doc ∈ docs, doc ∈ d.docs.keys
  apart : ∀ a inA b inB doc, d.clusters.declared.get? a = some inA →
    d.clusters.declared.get? b = some inB → doc ∈ inA → doc ∈ inB → a = b
  addresses : ∀ name url, d.links.addresses.get? name = some url → WebAddress url
  aliases : ∀ name target, d.links.aliases.get? name = some target →
    target ∈ d.links.addresses.keys
  examples : s.checkExamples = true → ∀ name doc, d.docs.get? name = some doc →
    ∀ p, doc.payload = some p → p.Conforms

end Draft

/-! ## Headers of a scope -/

namespace Scope

theorem unknownFormats_eq_nil_iff {s : Scope} :
    s.unknownFormats = [] ↔
      ∀ name r, s.headers.declared.get? name = some r → r.format ∈ s.formats.keys := by
  unfold unknownFormats
  rw [List.map_eq_nil_iff, List.filter_eq_nil_iff, ← FieldSet.forall_mem_all]
  simp only [Bool.not_eq_true', Bool.not_eq_false, Table.contains_iff]

theorem exclusionFault_eq_none_iff {headers : FieldSet HeaderRule} {name member : String} :
    exclusionFault headers name member = none ↔
      member ≠ name ∧ headers.Excludes member name := by
  unfold exclusionFault FieldSet.Excludes
  rw [FieldSet.get?_declared]
  by_cases h : member = name
  · simp [h]
  · cases headers.get? member with
    | none => simp [h]
    | some r => simp [h]

/-- The faults of all headers are those of exclusion as a relation. -/
theorem exclusionFaults_eq_nil_iff {s : Scope} (hn : s.headers.Named) :
    s.exclusionFaults = [] ↔ ∀ name member, s.headers.Excludes name member →
      member ≠ name ∧ s.headers.Excludes member name := by
  have hall : s.exclusionFaults = [] ↔ ∀ h ∈ s.headers.all, ∀ member ∈ h.record.exclusive,
      exclusionFault s.headers h.name member = none := by
    simp only [exclusionFaults, List.flatMap_eq_nil_iff, List.map_eq_nil_iff,
      List.filterMap_eq_nil_iff]
  rw [hall, hn.forall_mem_all (P := fun name (r : HeaderRule) => ∀ member ∈ r.exclusive,
    exclusionFault s.headers name member = none)]
  simp only [exclusionFault_eq_none_iff]
  constructor
  · rintro H name member ⟨r, hr, hm⟩
    exact H name r hr member hm
  · intro H name r hr member hm
    exact H name member ⟨r, hr, hm⟩

/-- Without faults of either kind the headers of the scope are sound. -/
theorem sound_iff {s : Scope} (hn : s.headers.Named) :
    s.unknownFormats = [] ∧ s.exclusionFaults = [] ↔ s.headers.Sound s.formats := by
  rw [unknownFormats_eq_nil_iff, exclusionFaults_eq_nil_iff hn]
  constructor
  · rintro ⟨hf, he⟩
    refine ⟨hf, ?_, ?_, ?_⟩
    · intro name h
      exact (he name name h).1 rfl
    · intro name member h
      exact (he name member h).2
    · intro name member h
      obtain ⟨r, hr, -⟩ := (he name member h).2
      exact Table.mem_keys_iff.mpr ⟨r, hr⟩
  · intro h
    refine ⟨h.formats, ?_⟩
    intro name member hx
    refine ⟨?_, h.symmetric name member hx⟩
    rintro rfl
    exact h.irreflexive member hx

end Scope

namespace Draft

variable {d : Draft} {s : Settings}

/-- What holds of all scopes holds of the global ones and of those of each document. -/
theorem forall_mem_scopes {P : Scope → Prop} :
    (∀ sc ∈ d.scopes, P sc) ↔
      P (d.metadataScope ["metadata", "headers"] d.metadata.headers) ∧
      P (d.protectedScope ["cose", "headers"] d.cose.headers) ∧
      P (d.protectedScope ["cose", "signature_headers"] d.cose.signature) ∧
      ∀ name doc, d.docs.get? name = some doc →
        P (d.metadataScope ["docs", doc.name, "metadata"] doc.metadata) ∧
        P (d.protectedScope ["docs", doc.name, "headers"] doc.headers) := by
  unfold scopes
  rw [List.forall_mem_append, List.forall_mem_flatMap, Table.forall_mem_values]
  simp only [List.forall_mem_cons, List.not_mem_nil, false_implies, implies_true, and_true,
    and_assoc]

theorem named_of_mem_scopes (hl : d.Labelled) : ∀ sc ∈ d.scopes, sc.headers.Named :=
  forall_mem_scopes.mpr ⟨hl.fields.named.map _, hl.headers.named.map _, hl.signature.named.map _,
    fun name doc h => ⟨(hl.docFields name doc h).named.map _,
      (hl.docHeaders name doc h).named.map _⟩⟩

/-- Formats and exclusion: all five kinds of scopes are sound. -/
theorem checkScopes_clean_iff (hl : d.Labelled) :
    d.checkFormats.errors = [] ∧ d.checkExclusivity.errors = [] ↔
      (d.metadata.headers.map MetadataField.toHeaderRule).Sound d.metadata.formats ∧
      (d.cose.headers.map ProtectedHeader.toHeaderRule).Sound d.cose.formats ∧
      (d.cose.signature.map ProtectedHeader.toHeaderRule).Sound d.cose.formats ∧
      ∀ name doc, d.docs.get? name = some doc →
        (doc.metadata.map MetadataField.toHeaderRule).Sound d.metadata.formats ∧
        (doc.headers.map ProtectedHeader.toHeaderRule).Sound d.cose.formats := by
  have hnamed := named_of_mem_scopes hl
  have hall : d.checkFormats.errors = [] ∧ d.checkExclusivity.errors = [] ↔
      ∀ sc ∈ d.scopes, sc.headers.Sound sc.formats := by
    unfold checkFormats checkExclusivity
    rw [Report.errors_ofErrors, Report.errors_ofErrors, List.flatMap_eq_nil_iff,
      List.flatMap_eq_nil_iff]
    constructor
    · intro h sc hsc
      exact (Scope.sound_iff (hnamed sc hsc)).mp ⟨h.1 sc hsc, h.2 sc hsc⟩
    · intro h
      exact ⟨fun sc hsc => ((Scope.sound_iff (hnamed sc hsc)).mpr (h sc hsc)).1,
        fun sc hsc => ((Scope.sound_iff (hnamed sc hsc)).mpr (h sc hsc)).2⟩
  rw [hall, forall_mem_scopes]
  rfl

/-! ## Documents and change logs -/

theorem checkTypes_clean_iff :
    d.checkTypes.errors = [] ↔ ∀ name doc, d.docs.get? name = some doc → doc.type.ids ≠ [] := by
  unfold checkTypes
  rw [Report.errors_addWarnings, Report.errors_ofErrors, List.map_eq_nil_iff,
    List.filter_eq_nil_iff, Table.forall_mem_values]
  simp only [List.isEmpty_iff, ne_eq]

theorem checkVersions_clean_iff :
    d.checkVersions.errors = [] ↔ d.copyright.versions ≠ [] ∧
      ∀ name doc, d.docs.get? name = some doc → doc.versions ≠ [] := by
  unfold checkVersions
  rw [Report.errors_ofErrors, List.append_eq_nil_iff, List.map_eq_nil_iff, List.filter_eq_nil_iff,
    Table.forall_mem_values]
  simp only [List.isEmpty_iff, ne_eq, ite_eq_right_iff, List.cons_ne_nil, imp_false]

theorem errors_checkOrders : d.checkOrders.errors = [] := Report.errors_addWarnings _ _

/-! ## References -/

theorem danglingTargets_eq_nil_iff {referenceFormat : String} {place : List String}
    {f : Scoped MetadataField} :
    d.danglingTargets referenceFormat place f = [] ↔ f.record.LeadsInto referenceFormat d.docs := by
  unfold danglingTargets MetadataField.LeadsInto MetadataField.isReference
  by_cases h : f.record.format = referenceFormat
  · simp [h, Table.contains_iff]
  · simp [h]

theorem checkReferences_clean_iff :
    (d.checkReferences s).errors = [] ↔
      (∀ field f, d.metadata.headers.declared.get? field = some f →
        f.LeadsInto s.referenceFormat d.docs) ∧
      ∀ name doc, d.docs.get? name = some doc →
        ∀ field f, doc.metadata.declared.get? field = some f →
          f.LeadsInto s.referenceFormat d.docs := by
  have hset : ∀ place (fs : FieldSet MetadataField),
      fs.all.flatMap (d.danglingTargets s.referenceFormat place) = [] ↔
        ∀ field f, fs.declared.get? field = some f → f.LeadsInto s.referenceFormat d.docs := by
    intro place fs
    rw [List.flatMap_eq_nil_iff, ← FieldSet.forall_mem_all]
    simp only [danglingTargets_eq_nil_iff]
  unfold checkReferences fieldSets
  rw [Report.errors_addWarnings, Report.errors_ofErrors, List.flatMap_cons,
    List.append_eq_nil_iff, hset, List.flatMap_map, List.flatMap_eq_nil_iff,
    Table.forall_mem_values]
  simp only [hset]

theorem globalLinkFaults_eq_nil_iff :
    d.globalLinkFaults = [] ↔ ∀ field f, d.metadata.headers.declared.get? field = some f →
      ∀ l ∈ f.linkedRefs, l ∈ d.metadata.headers.declared.keys := by
  unfold globalLinkFaults
  rw [List.flatMap_eq_nil_iff, ← FieldSet.forall_mem_all (P := fun f : MetadataField =>
    ∀ l ∈ f.linkedRefs, l ∈ d.metadata.headers.declared.keys)]
  simp only [List.map_eq_nil_iff, List.filter_eq_nil_iff, Bool.not_eq_true', Bool.not_eq_false,
    FieldSet.contains_iff]

theorem isExcluded_iff {p : Presence} : p.isExcluded = true ↔ p = .excluded := by
  cases p <;> simp [Presence.isExcluded]

theorem definesField_iff {doc field : String} :
    d.definesField doc field = true ↔
      ∃ t, d.docs.get? doc = some t ∧ t.metadata.Admits field := by
  unfold definesField FieldSet.Admits
  cases d.docs.get? doc with
  | none => simp
  | some t =>
    simp only [Option.bind_some, Option.some.injEq, exists_eq_left', FieldSet.get?_declared]
    cases t.metadata.get? field with
    | none => simp
    | some f => simp [← isExcluded_iff]

theorem linkFaults_eq_nil_iff {referenceFormat : String} {fields : FieldSet MetadataField}
    {field linked : String} :
    d.linkFaults referenceFormat fields field linked = [] ↔
      Documents.Links d.docs referenceFormat fields field linked := by
  unfold linkFaults Documents.Links MetadataField.isReference
  rw [FieldSet.get?_declared]
  cases fields.get? linked with
  | none => simp
  | some r =>
    by_cases h : r.record.format = referenceFormat
    · have htarget : ∀ t, ¬(d.docs.contains t && !d.definesField t field) = true ↔
          ∀ doc, d.docs.get? t = some doc → doc.metadata.Admits field := by
        intro t
        rw [Bool.and_eq_true, Bool.not_eq_true', Table.contains_iff, Table.mem_keys_iff,
          ← Bool.not_eq_true, definesField_iff]
        cases d.docs.get? t <;> simp
      simp only [Option.map_some, h, beq_self_eq_true, Bool.not_true, Bool.false_eq_true, if_false,
        List.map_eq_nil_iff, List.filter_eq_nil_iff, htarget, Option.some.injEq, exists_eq_left',
        true_and]
    · simp [h]

theorem docLinkFaults_eq_nil_iff {referenceFormat name : String} {fields : FieldSet MetadataField}
    (hn : fields.Named) : d.docLinkFaults referenceFormat name fields = [] ↔
      ∀ field f, fields.declared.get? field = some f → f.presence ≠ .excluded →
        ∀ l ∈ f.linkedRefs, Documents.Links d.docs referenceFormat fields field l := by
  unfold docLinkFaults
  rw [List.flatMap_eq_nil_iff, ← hn.forall_mem_all (P := fun field (f : MetadataField) =>
    f.presence ≠ .excluded →
      ∀ l ∈ f.linkedRefs, Documents.Links d.docs referenceFormat fields field l)]
  simp only [List.mem_filter, Bool.not_eq_true', ← Bool.not_eq_true, isExcluded_iff,
    List.map_eq_nil_iff, List.flatMap_eq_nil_iff, linkFaults_eq_nil_iff, and_imp, ne_eq]

theorem checkLinkedRefs_clean_iff (hl : d.Labelled) :
    (d.checkLinkedRefs s).errors = [] ↔
      (∀ field f, d.metadata.headers.declared.get? field = some f →
        ∀ l ∈ f.linkedRefs, l ∈ d.metadata.headers.declared.keys) ∧
      ∀ name doc, d.docs.get? name = some doc →
        ∀ field f, doc.metadata.declared.get? field = some f → f.presence ≠ .excluded →
          ∀ l ∈ f.linkedRefs, Documents.Links d.docs s.referenceFormat doc.metadata field l := by
  unfold checkLinkedRefs
  rw [Report.errors_ofErrors, List.append_eq_nil_iff, globalLinkFaults_eq_nil_iff,
    List.flatMap_eq_nil_iff, Table.forall_mem_values]
  refine and_congr_right fun _ => forall₂_congr fun name doc => imp_congr_right fun hdoc => ?_
  exact docLinkFaults_eq_nil_iff (hl.docFields name doc hdoc).named

/-! ## Definitions -/

/-- Before any synthesis a name is known if it is declared or will be synthesized. -/
theorem knows_iff (hd : d.cddl.synthesized = Table.empty) {name : String} :
    (d.cddl.contains name || s.synthesizedNames.contains name) = true ↔ d.Knows s name := by
  unfold Knows Cddl.Registry.contains
  rw [hd, Bool.or_eq_true, Bool.or_eq_true, Table.contains_iff, Table.contains_iff,
    List.contains_iff_mem, Cddl.Registry.keys_declared]
  simp [Table.keys, Table.empty]

theorem danglingFormats_eq_nil_iff {known : String → Bool} {place : List String}
    {formats : Formats} :
    danglingFormats known place formats = [] ↔
      ∀ name f, formats.get? name = some f → known f.cddl = true := by
  unfold danglingFormats
  rw [List.map_eq_nil_iff, List.filter_eq_nil_iff,
    ← Table.forall_mem_entries (P := fun _ (f : ValueFormat) => known f.cddl = true)]
  simp only [Bool.not_eq_true', Bool.not_eq_false]

theorem unresolved_eq_nil_iff {r : Cddl.Registry} {known : List String} :
    r.unresolved known = [] ↔ ∀ name rule, r.declared.get? name = some rule →
      ∀ n ∈ rule.requires, n ∈ r.declared.keys ∨ n ∈ known := by
  unfold Cddl.Registry.unresolved
  rw [Cddl.Registry.forall_declared (P := fun rule : Cddl.Rule =>
    ∀ n ∈ rule.requires, n ∈ r.declared.keys ∨ n ∈ known), List.flatMap_eq_nil_iff,
    Cddl.Registry.keys_declared]
  refine Iff.trans ?_ Table.forall_mem_entries
  simp only [List.map_eq_nil_iff, List.filter_eq_nil_iff, Bool.and_eq_true, Bool.not_eq_true',
    ← Bool.not_eq_true, Table.contains_iff, List.contains_iff_mem, Classical.not_and_iff_not_or_not,
    Classical.not_not]

theorem checkCddl_clean_iff (hd : d.cddl.synthesized = Table.empty) :
    (d.checkCddl s).errors = [] ↔
      (∀ name rule, d.cddl.declared.get? name = some rule → ∀ n ∈ rule.requires, d.Knows s n) ∧
      (∀ name f, d.metadata.formats.get? name = some f → d.Knows s f.cddl) ∧
      ∀ name f, d.cose.formats.get? name = some f → d.Knows s f.cddl := by
  unfold checkCddl
  rw [Report.errors_ofErrors, List.append_eq_nil_iff, List.append_eq_nil_iff, List.map_eq_nil_iff,
    unresolved_eq_nil_iff, danglingFormats_eq_nil_iff, danglingFormats_eq_nil_iff, and_assoc]
  simp only [knows_iff hd]
  rfl

/-! ## Clusters -/

/-- A document is always claimed by the same cluster. -/
def Agree (cs : List Claim) : Prop := ∀ a ∈ cs, ∀ b ∈ cs, a.doc = b.doc → a.cluster = b.cluster

theorem agree_cons_iff {c : Claim} {cs : List Claim} :
    Agree (c :: cs) ↔ (∀ e ∈ cs, e.doc = c.doc → e.cluster = c.cluster) ∧ Agree cs := by
  unfold Agree
  constructor
  · intro h
    refine ⟨?_, ?_⟩
    · intro e he
      exact h e (List.mem_cons_of_mem c he) c List.mem_cons_self
    · intro a ha b hb
      exact h a (List.mem_cons_of_mem c ha) b (List.mem_cons_of_mem c hb)
  · rintro ⟨hc, hcs⟩ a ha b hb he
    rcases List.mem_cons.mp ha with rfl | hac
    · rcases List.mem_cons.mp hb with rfl | hbc
      · rfl
      · exact (hc b hbc he.symm).symm
    · rcases List.mem_cons.mp hb with rfl | hbc
      · exact hc a hac he
      · exact hcs a hac b hbc he

/-- As long as the claims before agree, it does not matter which of them is compared. -/
theorem claimFaults_eq_nil_iff {earlier : List Claim} (h : Agree earlier) {c : Claim} :
    d.claimFaults earlier c = [] ↔
      c.doc ∈ d.docs.keys ∧ ∀ e ∈ earlier, e.doc = c.doc → e.cluster = c.cluster := by
  have hmember : (if d.docs.contains c.doc then [] else [Finding.foreignMember c.doc]) = [] ↔
      c.doc ∈ d.docs.keys := by
    rw [← Table.contains_iff]
    split <;> simp_all
  unfold claimFaults
  rw [List.append_eq_nil_iff, hmember]
  cases hf : earlier.find? fun e => e.doc == c.doc with
  | none =>
    rw [List.find?_eq_none] at hf
    have hnew : ∀ e ∈ earlier, e.doc = c.doc → e.cluster = c.cluster := by
      intro e he hdoc
      exact absurd (beq_iff_eq.mpr hdoc) (hf e he)
    exact ⟨fun hc => ⟨hc.1, hnew⟩, fun hc => ⟨hc.1, rfl⟩⟩
  | some o =>
    have hmem : o ∈ earlier := List.mem_of_find?_eq_some hf
    have hdoc : o.doc = c.doc :=
      beq_iff_eq.mp (List.find?_some (p := fun e : Claim => e.doc == c.doc) hf)
    have hone : (∀ e ∈ earlier, e.doc = c.doc → e.cluster = c.cluster) ↔
        o.cluster = c.cluster := by
      constructor
      · intro H
        exact H o hmem hdoc
      · intro ho e he hed
        exact (h e he o hmem (hed.trans hdoc.symm)).trans ho
    rw [hone]
    by_cases ho : o.cluster = c.cluster <;> simp [ho]

/-- The claims are gone through one by one: what came before has to agree, and a
claim that brings no fault keeps it so. -/
theorem claimIssues_eq_nil_iff {earlier cs : List Claim} (h : Agree earlier) :
    d.claimIssues earlier cs = [] ↔
      (∀ c ∈ cs, c.doc ∈ d.docs.keys) ∧ Agree (cs.reverse ++ earlier) := by
  induction cs generalizing earlier with
  | nil => simpa [claimIssues] using h
  | cons c cs ih =>
    unfold claimIssues
    rw [List.append_eq_nil_iff, List.map_eq_nil_iff, claimFaults_eq_nil_iff h,
      List.forall_mem_cons, List.reverse_cons, List.append_assoc]
    show _ ↔ _ ∧ Agree (cs.reverse ++ c :: earlier)
    constructor
    · rintro ⟨⟨hc, hagree⟩, hrest⟩
      obtain ⟨hcs, hall⟩ := (ih (agree_cons_iff.mpr ⟨hagree, h⟩)).mp hrest
      exact ⟨⟨hc, hcs⟩, hall⟩
    · rintro ⟨⟨hc, hcs⟩, hall⟩
      have hagree : Agree (c :: earlier) := by
        intro a ha b hb
        exact hall a (List.mem_append_right _ ha) b (List.mem_append_right _ hb)
      exact ⟨⟨hc, (agree_cons_iff.mp hagree).1⟩, (ih hagree).mpr ⟨hcs, hall⟩⟩

theorem mem_claims (hn : d.clusters.Named) {c : Claim} :
    c ∈ d.claims ↔ ∃ docs, d.clusters.declared.get? c.cluster = some docs ∧ c.doc ∈ docs := by
  obtain ⟨cluster, doc⟩ := c
  unfold claims
  simp only [List.mem_flatMap, List.mem_map, Claim.mk.injEq, Clusters.get?_declared_eq_some_iff]
  constructor
  · rintro ⟨o, ho, m, hm, rfl, rfl⟩
    exact ⟨o.docs, ⟨o, hn.mem_all.mp ho, rfl⟩, hm⟩
  · rintro ⟨-, ⟨o, ho, rfl⟩, hm⟩
    exact ⟨o, Clusters.mem_all.mpr ⟨cluster, ho⟩, doc, hm, hn cluster o ho, rfl⟩

theorem checkClusters_clean_iff (hn : d.clusters.Named) :
    d.checkClusters.errors = [] ↔
      (∀ name docs, d.clusters.declared.get? name = some docs →
        ∀ doc ∈ docs, doc ∈ d.docs.keys) ∧
      ∀ a inA b inB doc, d.clusters.declared.get? a = some inA →
        d.clusters.declared.get? b = some inB → doc ∈ inA → doc ∈ inB → a = b := by
  have hnone : Agree [] := by
    intro a ha
    cases ha
  unfold checkClusters
  rw [Report.errors_ofErrors, claimIssues_eq_nil_iff hnone, List.append_nil]
  constructor
  · rintro ⟨hdocs, hagree⟩
    refine ⟨?_, ?_⟩
    · intro name docs hname doc hdoc
      exact hdocs ⟨name, doc⟩ ((mem_claims hn).mpr ⟨docs, hname, hdoc⟩)
    · intro a inA b inB doc ha hb hA hB
      exact hagree ⟨a, doc⟩ (List.mem_reverse.mpr ((mem_claims hn).mpr ⟨inA, ha, hA⟩))
        ⟨b, doc⟩ (List.mem_reverse.mpr ((mem_claims hn).mpr ⟨inB, hb, hB⟩)) rfl
  · rintro ⟨hdocs, hapart⟩
    refine ⟨?_, ?_⟩
    · intro c hc
      obtain ⟨docs, hname, hdoc⟩ := (mem_claims hn).mp hc
      exact hdocs c.cluster docs hname c.doc hdoc
    · intro a ha b hb he
      obtain ⟨inA, hina, hA⟩ := (mem_claims hn).mp (List.mem_reverse.mp ha)
      obtain ⟨inB, hinb, hB⟩ := (mem_claims hn).mp (List.mem_reverse.mp hb)
      exact hapart a.cluster inA b.cluster inB a.doc hina hinb hA (he ▸ hB)

/-! ## Links and examples -/

theorem checkLinks_clean_iff :
    d.checkLinks.errors = [] ↔
      (∀ name url, d.links.addresses.get? name = some url → WebAddress url) ∧
      ∀ name target, d.links.aliases.get? name = some target →
        target ∈ d.links.addresses.keys := by
  unfold checkLinks malformedLinks Links.dangling
  rw [Report.errors_ofErrors, List.append_eq_nil_iff, Links.malformed_eq,
    ← Table.forall_mem_entries (P := fun _ url => WebAddress url),
    ← Table.forall_mem_entries (P := fun _ target => target ∈ d.links.addresses.keys)]
  simp only [List.map_eq_nil_iff, List.filter_eq_nil_iff, Bool.not_eq_true', Bool.not_eq_false,
    Links.occursIn_webPattern, Table.contains_iff]

section Engine

variable [JsonSchema.Engine]

theorem faults_eq_nil_iff {p : Payload} : p.faults = [] ↔ p.Conforms := by
  obtain ⟨description, isNil, schema, examples⟩ := p
  unfold Payload.faults Payload.mismatches
  cases examples with
  | nil => exact ⟨fun _ => .noExamples rfl, fun _ => rfl⟩
  | cons e es =>
    match schema with
    | none =>
      simp only [List.isEmpty_cons, Bool.false_eq_true, if_false, List.cons_ne_nil, false_iff]
      rintro (h | ⟨_, h⟩ | ⟨_, h⟩) <;> cases h
    | some (.address url) => exact ⟨fun _ => .elsewhere url rfl, fun _ => rfl⟩
    | some (.inline schema) =>
      simp only [List.isEmpty_cons, Bool.false_eq_true, if_false]
      cases hu : JsonSchema.Engine.unusable? (Json.ofTable schema) with
      | some reason =>
        simp only [List.cons_ne_nil, false_iff]
        rintro (h | ⟨_, h⟩ | ⟨_, h, usable⟩)
        · cases h
        · cases h
        · cases h
          rw [hu] at usable
          cases usable
      | none =>
        simp only [List.flatMap_eq_nil_iff, List.map_eq_nil_iff]
        constructor
        · intro h
          exact .matching schema rfl hu h
        · rintro (h | ⟨_, h⟩ | ⟨_, h, _, fits⟩)
          · cases h
          · cases h
          · cases h
            exact fits

theorem checkPayloads_clean_iff {docs : Documents} :
    (checkPayloads docs).errors = [] ↔
      ∀ name doc, docs.get? name = some doc → ∀ p, doc.payload = some p → p.Conforms := by
  unfold checkPayloads
  rw [Report.errors_ofErrors, List.flatMap_eq_nil_iff, Table.forall_mem_values]
  simp only [List.map_eq_nil_iff]
  refine forall₂_congr fun name doc => imp_congr_right fun _ => ?_
  cases doc.payload <;> simp [faults_eq_nil_iff]

end Engine

/-! ## All checks -/

/-- Reading synthesizes nothing. -/
theorem synthesized_of_read {root : Json} (h : (read root).1 = some d) :
    d.cddl.synthesized = Table.empty := by
  obtain ⟨t, -, rfl⟩ := exists_fields_of_read h
  rfl

section

variable [JsonSchema.Engine]

theorem errors_check_eq_nil_iff : (d.check s).errors = [] ↔
    d.checkTypes.errors = [] ∧ d.checkVersions.errors = [] ∧
    (d.checkFormats.errors = [] ∧ d.checkExclusivity.errors = []) ∧
    (d.checkReferences s).errors = [] ∧ (d.checkLinkedRefs s).errors = [] ∧
    (d.checkCddl s).errors = [] ∧ d.checkClusters.errors = [] ∧ d.checkLinks.errors = [] ∧
    (s.checkExamples = true → (checkPayloads d.docs).errors = []) := by
  have hpayloads : (if s.checkExamples = true then [checkPayloads d.docs] else []).flatMap
      Report.errors = [] ↔ (s.checkExamples = true → (checkPayloads d.docs).errors = []) := by
    split <;> simp_all
  unfold check
  rw [Report.errors_mergeAll, List.flatMap_append, List.append_eq_nil_iff, hpayloads]
  simp only [List.flatMap_cons, List.flatMap_nil, List.append_nil, List.append_eq_nil_iff,
    errors_checkOrders, true_and, and_assoc]

/-- As long as everything is labelled and nothing is synthesized, the checks have no error exactly
if the draft is coherent. -/
theorem check_clean_iff (hl : d.Labelled) (hd : d.cddl.synthesized = Table.empty) :
    (d.check s).errors = [] ↔ d.Coherent s := by
  rw [errors_check_eq_nil_iff, checkTypes_clean_iff, checkVersions_clean_iff,
    checkScopes_clean_iff hl, checkReferences_clean_iff, checkLinkedRefs_clean_iff hl,
    checkCddl_clean_iff hd, checkClusters_clean_iff hl.clusters, checkLinks_clean_iff,
    checkPayloads_clean_iff]
  constructor
  · rintro ⟨htypes, ⟨hcopyright, hversions⟩, ⟨hmetadata, hheaders, hsignature, hdocs⟩,
      ⟨htargets, hdocTargets⟩, ⟨hlinked, hdocLinked⟩, ⟨hrequires, hmetadataTypes, hheaderTypes⟩,
      ⟨hmembers, hapart⟩, ⟨haddresses, haliases⟩, hexamples⟩
    exact {
      types := htypes
      copyrightVersions := hcopyright
      versions := hversions
      metadata := hmetadata
      headers := hheaders
      signature := hsignature
      docMetadata := fun name doc h => (hdocs name doc h).1
      docHeaders := fun name doc h => (hdocs name doc h).2
      targets := htargets
      docTargets := hdocTargets
      linkedRefs := hlinked
      docLinkedRefs := hdocLinked
      requirements := hrequires
      metadataTypes := hmetadataTypes
      headerTypes := hheaderTypes
      members := hmembers
      apart := hapart
      addresses := haddresses
      aliases := haliases
      examples := hexamples }
  · intro h
    exact ⟨h.types, ⟨h.copyrightVersions, h.versions⟩,
      ⟨h.metadata, h.headers, h.signature,
        fun name doc hn => ⟨h.docMetadata name doc hn, h.docHeaders name doc hn⟩⟩,
      ⟨h.targets, h.docTargets⟩, ⟨h.linkedRefs, h.docLinkedRefs⟩,
      ⟨h.requirements, h.metadataTypes, h.headerTypes⟩, ⟨h.members, h.apart⟩,
      ⟨h.addresses, h.aliases⟩, h.examples⟩

/-- The verdict of the checks is that the draft is coherent. -/
theorem read_check_isValid_iff {root : Json} (h : (read root).1 = some d) (s : Settings) :
    (d.check s).isValid = true ↔ d.Coherent s :=
  (reached_check d s).inStep.isValid_iff.trans
    (check_clean_iff (labelled_of_read h) (synthesized_of_read h))

/-- What was read passes all checks exactly if it is coherent. -/
theorem read_check_clean_iff {root : Json} (h : (read root).1 = some d) (s : Settings) :
    (d.check s).errors = [] ↔ d.Coherent s :=
  check_clean_iff (labelled_of_read h) (synthesized_of_read h)

end

/-- Letters and replies. A reply goes to the document that is given and takes over its
subject; a signature has a key or an alias of it. -/
def correspondence (recipient : String) : Json :=
  let versions := Json.array [.object [("version", .string "1"), ("modified", .string "2024-01-01"),
    ("changes", .string "")]]
  let rule (presence format : String) (more : List (String × Json)) := Json.object <|
    [("description", .string ""), ("required", .string presence), ("format", .string format)] ++ more
  let format (cddl : String) := Json.object [("cddl", .string cddl), ("description", .string "")]
  let subject (more : List (String × Json)) := ("subject", rule "optional" "Text" more)
  let document (fields more : List (String × Json)) := Json.object <|
    [("type", .array [.string "7808d2ba-d511-40af-84e8-c0d1625fdfdc"]),
      ("headers", .object [("kind", rule "yes" "Text" [])]), ("metadata", .object fields),
      ("signers", .object [("roles", .object [])]), ("authors", .object []),
      ("versions", versions)] ++ more
  .object [("authors", .object []), ("base_types", .object []),
    ("cddlDefinitions", .object [
      ("text", .object [("def", .string "tstr"), ("requires", .array [])]),
      ("address", .object [("def", .string "text"), ("requires", .array [.string "text"])])]),
    ("contentTypes", .object []), ("encodingTypes", .object []),
    ("copyright", .object [("publisher", .string ""), ("copyright", .string ""),
      ("license", .string ""), ("created", .string "2024-01-01"), ("versions", versions)]),
    ("cose", .object [("headerFormats", .object [("Text", format "text")]),
      ("headers", .object [("kind", rule "yes" "Text" [])]),
      ("headersOrder", .array [.string "kind"]),
      ("signature_headers", .object [("key", rule "yes" "Text" [("exclusive", .string "alias")]),
        ("alias", rule "yes" "Text" [("exclusive", .string "key")])])]),
    ("docClusters", .object [
      ("mail", .object [("docs", .array [.string "letter", .string "reply"])])]),
    ("docs", .object [
      ("letter", document [subject []] [("payload", .object [("description", .string ""),
        ("schema", .object [("type", .string "string")]),
        ("examples", .array [.object [("title", .string ""), ("description", .string ""),
          ("example", .string "Dear all")]])])]),
      ("reply", document [subject [("linked_refs", .string "to")],
        ("to", rule "yes" "Document Reference" [("type", .string recipient)])] [])]),
    ("documentationLinks", .object [("Post", .string "https://example.org/post")]),
    ("linkAKA", .object [("Mail", .string "Post")]),
    ("metadata", .object [("headers", .object [subject []]),
      ("formats", .object [("Text", format "text"), ("Document Reference", format "address")]),
      ("order", .array [.string "subject"])])]

/-- Replies to letters are coherent, with all sections in use; a reply to a document that does not
exist makes the specification incoherent. -/
theorem correspondence_coherent :
    (∃ d, (read (correspondence "letter")).1 = some d ∧ d.Coherent .default) ∧
      ∃ d, (read (correspondence "parcel")).1 = some d ∧ ¬d.Coherent .default := by
  have hletter : (read (correspondence "letter")).1 = some _ := rfl
  have hparcel : (read (correspondence "parcel")).1 = some _ := rfl
  refine ⟨⟨_, hletter, (read_check_clean_iff hletter .default).mp ?_⟩,
    ⟨_, hparcel, mt (read_check_clean_iff hparcel .default).mpr ?_⟩⟩
  · rfl
  · decide

end Draft

end SignedDocs
