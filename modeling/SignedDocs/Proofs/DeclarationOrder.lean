import SignedDocs.Proofs.ClusterLookup
import SignedDocs.Proofs.Definitions
import SignedDocs.Proofs.ExclusiveChoice
import SignedDocs.Proofs.RearrangedReading

/-!
The order of declarations decides nothing: two specifications that are rearrangements of
each other are both accepted or both rejected, and questions have the same answers.

* `Matches.coherent`: coherence only asks what is found under names.
* `mem_requires_synthesize_iff`: which types a group requires is said without the order of
  its headers; so a name needs the same names before and after (`Matches.needs_iff`).
* `SameAnswers`, `declaration_order_irrelevant`: what is compared, and the result.
-/

namespace SignedDocs

/-! ## Coherence -/

theorem FieldSet.Matches.sound {hs ks : FieldSet HeaderRule} {formats others : Formats}
    (h : hs.Matches ks) (hformats : formats.Agree (fun _ => Eq) others)
    (hsound : hs.Sound formats) : ks.Sound others := by
  have hexcludes : ∀ name member, ks.Excludes name member ↔ hs.Excludes name member := by
    intro name member
    unfold FieldSet.Excludes
    rw [h.get?_declared_eq name]
  constructor
  · intro name r hr
    rw [← h.get?_declared_eq name] at hr
    exact (hformats.keys _).mp (hsound.formats name r hr)
  · intro name hx
    exact hsound.irreflexive name ((hexcludes name name).mp hx)
  · intro name member hx
    exact (hexcludes member name).mpr
      (hsound.symmetric name member ((hexcludes name member).mp hx))
  · intro name member hx
    exact (h.declared.keys member).mp (hsound.within name member ((hexcludes name member).mp hx))

namespace Draft

variable {a b : Draft} {s : Settings}

namespace Matches

theorem mem_docs_iff (h : a.Matches b) {name : String} :
    name ∈ a.docs.keys ↔ name ∈ b.docs.keys := h.docs.keys name

theorem knows (h : a.Matches b) {name : String} (hname : a.Knows s name) : b.Knows s name :=
  hname.imp_left (h.rules.keys name).mp

theorem leadsInto (h : a.Matches b) {f : MetadataField}
    (hf : f.LeadsInto s.referenceFormat a.docs) : f.LeadsInto s.referenceFormat b.docs := by
  intro hformat t ht
  exact h.mem_docs_iff.mp (hf hformat t ht)

theorem links (h : a.Matches b) {fs gs : FieldSet MetadataField} (hfs : fs.Matches gs)
    {field linked : String} (hlinks : Documents.Links a.docs s.referenceFormat fs field linked) :
    Documents.Links b.docs s.referenceFormat gs field linked := by
  obtain ⟨r, hr, hformat, htargets⟩ := hlinks
  rw [hfs.get?_declared_eq linked] at hr
  refine ⟨r, hr, hformat, ?_⟩
  intro t ht doc hdoc
  obtain ⟨doc', hdoc', hmatch⟩ := h.docs.exists_left hdoc
  obtain ⟨f, hf, hpresent⟩ := htargets t ht doc' hdoc'
  rw [hmatch.metadata.get?_declared_eq field] at hf
  exact ⟨f, hf, hpresent⟩

/-- Every condition is about what is found under names, and so passes over. -/
theorem coherent [JsonSchema.Engine] (h : a.Matches b) (hc : a.Coherent s) : b.Coherent s where
  types name doc hdoc := by
    obtain ⟨doc', hdoc', hmatch⟩ := h.docs.exists_left hdoc
    rw [← hmatch.body]
    exact hc.types name doc' hdoc'
  copyrightVersions := h.copyright ▸ hc.copyrightVersions
  versions name doc hdoc := by
    obtain ⟨doc', hdoc', hmatch⟩ := h.docs.exists_left hdoc
    rw [← hmatch.body]
    exact hc.versions name doc' hdoc'
  metadata := (h.metadata.headers.map _).sound h.metadata.formats hc.metadata
  headers := (h.cose.headers.map _).sound h.cose.formats hc.headers
  signature := (h.cose.signature.map _).sound h.cose.formats hc.signature
  docMetadata name doc hdoc := by
    obtain ⟨doc', hdoc', hmatch⟩ := h.docs.exists_left hdoc
    exact (hmatch.metadata.map _).sound h.metadata.formats (hc.docMetadata name doc' hdoc')
  docHeaders name doc hdoc := by
    obtain ⟨doc', hdoc', hmatch⟩ := h.docs.exists_left hdoc
    exact (hmatch.headers.map _).sound h.cose.formats (hc.docHeaders name doc' hdoc')
  targets field f hf := by
    rw [← h.metadata.headers.get?_declared_eq field] at hf
    exact h.leadsInto (hc.targets field f hf)
  docTargets name doc hdoc field f hf := by
    obtain ⟨doc', hdoc', hmatch⟩ := h.docs.exists_left hdoc
    rw [← hmatch.metadata.get?_declared_eq field] at hf
    exact h.leadsInto (hc.docTargets name doc' hdoc' field f hf)
  linkedRefs field f hf l hl := by
    rw [← h.metadata.headers.get?_declared_eq field] at hf
    exact (h.metadata.headers.declared.keys l).mp (hc.linkedRefs field f hf l hl)
  docLinkedRefs name doc hdoc field f hf hpresent l hl := by
    obtain ⟨doc', hdoc', hmatch⟩ := h.docs.exists_left hdoc
    rw [← hmatch.metadata.get?_declared_eq field] at hf
    exact h.links hmatch.metadata (hc.docLinkedRefs name doc' hdoc' field f hf hpresent l hl)
  requirements name rule hrule n hn := by
    rw [← Table.agree_eq_iff.mp h.rules name] at hrule
    exact h.knows (hc.requirements name rule hrule n hn)
  metadataTypes name f hf := by
    rw [← Table.agree_eq_iff.mp h.metadata.formats name] at hf
    exact h.knows (hc.metadataTypes name f hf)
  headerTypes name f hf := by
    rw [← Table.agree_eq_iff.mp h.cose.formats name] at hf
    exact h.knows (hc.headerTypes name f hf)
  members name docs hdocs doc hdoc := by
    rw [← Table.agree_eq_iff.mp h.members name] at hdocs
    exact h.mem_docs_iff.mp (hc.members name docs hdocs doc hdoc)
  apart x inX y inY doc hx hy := by
    rw [← Table.agree_eq_iff.mp h.members] at hx hy
    exact hc.apart x inX y inY doc hx hy
  addresses name url hurl := by
    rw [← Table.agree_eq_iff.mp h.addresses name] at hurl
    exact hc.addresses name url hurl
  aliases name target htarget := by
    rw [← Table.agree_eq_iff.mp h.aliases name] at htarget
    exact (h.addresses.keys target).mp (hc.aliases name target htarget)
  examples hcheck name doc hdoc p hp := by
    obtain ⟨doc', hdoc', hmatch⟩ := h.docs.exists_left hdoc
    rw [← hmatch.body] at hp
    exact hc.examples hcheck name doc' hdoc' p hp

/-- Syntheses do not disturb the declarations. -/
theorem primed (h : a.Matches b) : (a.primed s).Matches (b.primed s) := by
  unfold Draft.primed
  rw [foldl_prime_eq, foldl_prime_eq HeaderKind.all b]
  exact ⟨h.definitions, h.copyright, h.cose, h.metadata, h.clusters, h.docs, h.addresses, h.aliases⟩

end Matches

end Draft

/-! ## Required names -/

/-- A synthesized definition requires the types of its live headers; which of them is met
first does not matter. -/
theorem Cddl.mem_requires_synthesize_iff {hs : FieldSet HeaderRule} (hn : hs.Named)
    {formats : Formats} {name : String} {base : Option Rule} {e : Definition}
    (h : synthesize name base hs.all formats = .ok e) {n : String} :
    n ∈ e.rule.requires ↔ ∃ key r f, hs.declared.get? key = some r ∧ r.presence ≠ .excluded ∧
      formats.get? r.format = some f ∧ f.cddl = n := by
  obtain ⟨g, hg, rfl⟩ := Group.synthesize_eq_ok_iff.mp h
  have hlive : ∀ x : Group.Header, x ∈ Group.live hs.all ↔
      hs.get? x.name = some x ∧ x.record.presence ≠ .excluded := by
    intro x
    unfold Group.live
    rw [List.mem_filter, hn.mem_all, Bool.not_eq_true', ← Bool.not_eq_true, Draft.isExcluded_iff]
  show n ∈ g.requires ↔ _
  rw [Group.mem_requires_iff]
  constructor
  · rintro ⟨e, he, rfl⟩
    obtain ⟨x, hx, hentry⟩ := Group.exists_header_of_mem_entries hg he
    obtain ⟨f, hf, rfl⟩ := Group.entryOf_eq_ok_iff.mp hentry
    obtain ⟨hget, hpresent⟩ := (hlive x).mp hx
    have hdeclared := FieldSet.get?_declared_eq_some_iff.mpr ⟨x, hget, rfl⟩
    exact ⟨x.name, x.record, f, hdeclared, hpresent, hf, rfl⟩
  · rintro ⟨key, r, f, hdeclared, hpresent, hf, rfl⟩
    obtain ⟨x, hget, rfl⟩ := FieldSet.get?_declared_eq_some_iff.mp hdeclared
    rw [← hn key x hget] at hget
    have hx := (hlive x).mpr ⟨hget, hpresent⟩
    obtain ⟨e, he, hkey⟩ := List.mem_map.mp ((Group.mem_header_entries_iff hg).mpr ⟨_, hx, rfl⟩)
    -- the entry of the name is that of this header, since the name has only one
    obtain ⟨y, hy, hentry⟩ := Group.exists_header_of_mem_entries hg he
    obtain ⟨f', hf', rfl⟩ := Group.entryOf_eq_ok_iff.mp hentry
    obtain ⟨hget', -⟩ := (hlive y).mp hy
    have hsame : y = x := by
      rw [show y.name = x.name from hkey, hget] at hget'
      exact (Option.some.inj hget').symm
    rw [hsame, hf] at hf'
    cases hf'
    exact ⟨_, he, rfl⟩

namespace Draft

variable {a b d : Draft} {s : Settings}

/-- The global headers of a kind. -/
def globalHeaders (d : Draft) : HeaderKind → FieldSet HeaderRule
  | .document => d.cose.headers.map ProtectedHeader.toHeaderRule
  | .signature => d.cose.signature.map ProtectedHeader.toHeaderRule
  | .metadata => d.metadata.headers.map MetadataField.toHeaderRule

theorem synthesize_none_eq (d : Draft) (name : String) (kind : HeaderKind) :
    d.synthesize name kind none = Cddl.synthesize name (d.cddl.declared.get? name)
      (d.globalHeaders kind).all (d.formatsOf kind) := by
  cases kind <;> rfl

/-- A name requires another one: its synthesis has a live header of this type, or, without
a synthesis, its rule says so. -/
inductive Requires (d : Draft) (s : Settings) (n m : String) : Prop where
  | synthesized (kind : HeaderKind) (key : String) (r : HeaderRule) (f : ValueFormat)
      (last : HeaderKind.all.reverse.find? (fun kind => s.definitionName kind = n) = some kind)
      (header : (d.globalHeaders kind).declared.get? key = some r)
      (live : r.presence ≠ .excluded) (format : (d.formatsOf kind).get? r.format = some f)
      (type : f.cddl = m)
  | declared (rule : Cddl.Rule)
      (unhidden : HeaderKind.all.reverse.find? (fun kind => s.definitionName kind = n) = none)
      (stated : d.cddl.declared.get? n = some rule) (required : m ∈ rule.requires)

theorem named_globalHeaders (hl : d.Labelled) (kind : HeaderKind) :
    (d.globalHeaders kind).Named := by
  cases kind with
  | document => exact hl.headers.named.map _
  | signature => exact hl.signature.named.map _
  | metadata => exact hl.fields.named.map _

theorem Coherent.mem_required_iff [JsonSchema.Engine] (hc : d.Coherent s) (hl : d.Labelled)
    (hd : d.cddl.synthesized = Table.empty) {n m : String} :
    m ∈ (d.primed s).cddl.required n ↔ d.Requires s n m := by
  have hstored := get?_synthesized_primed (s := s) hd n
  cases hlast : HeaderKind.all.reverse.find? fun kind => s.definitionName kind = n with
  | some kind =>
    obtain ⟨e, he, -⟩ := hc.exists_synthesize_none hl n kind
    rw [hlast, Option.map_some, he] at hstored
    rw [Cddl.Registry.required_of_get (Cddl.Registry.get_eq_ok_iff.mpr (Or.inl hstored))]
    rw [synthesize_none_eq] at he
    rw [Cddl.mem_requires_synthesize_iff (named_globalHeaders hl kind) he]
    constructor
    · rintro ⟨key, r, f, hr, hlive, hf, hm⟩
      exact .synthesized kind key r f hlast hr hlive hf hm
    · rintro (⟨kind', key, r, f, hlast', hr, hlive, hf, hm⟩ | ⟨_, hnone, -, -⟩)
      · rw [hlast] at hlast'
        cases hlast'
        exact ⟨key, r, f, hr, hlive, hf, hm⟩
      · rw [hlast] at hnone
        cases hnone
  | none =>
    rw [hlast, Option.map_none] at hstored
    have hget : ∀ e, (d.primed s).cddl.get n = .ok e ↔ d.cddl.declared? n = some e := by
      intro e
      rw [Cddl.Registry.get_eq_ok_iff, hstored]
      unfold Cddl.Registry.declared?
      rw [definitions_primed]
      simp
    constructor
    · intro hm
      unfold Cddl.Registry.required at hm
      cases hfound : (d.primed s).cddl.get n with
      | error e =>
        rw [hfound] at hm
        cases hm
      | ok e =>
        rw [hfound] at hm
        have hrule := Cddl.Registry.get?_declared_eq_some_iff.mpr ⟨e, (hget e).mp hfound, rfl⟩
        exact .declared e.rule hlast hrule hm
    · rintro (⟨kind, -, -, -, hkind, -, -, -, -⟩ | ⟨rule, -, hrule, hm⟩)
      · rw [hlast] at hkind
        cases hkind
      · obtain ⟨e, he, rfl⟩ := Cddl.Registry.get?_declared_eq_some_iff.mp hrule
        rw [Cddl.Registry.required_of_get ((hget e).mpr he)]
        exact hm

namespace Matches

theorem globalHeaders (h : a.Matches b) (kind : HeaderKind) :
    (a.globalHeaders kind).Matches (b.globalHeaders kind) := by
  cases kind with
  | document => exact h.cose.headers.map _
  | signature => exact h.cose.signature.map _
  | metadata => exact h.metadata.headers.map _

theorem formatsOf (h : a.Matches b) (kind : HeaderKind) :
    (a.formatsOf kind).Agree (fun _ => Eq) (b.formatsOf kind) := by
  cases kind with
  | document => exact h.cose.formats
  | signature => exact h.cose.formats
  | metadata => exact h.metadata.formats

theorem requires (h : a.Matches b) {n m : String} (hnm : a.Requires s n m) : b.Requires s n m := by
  cases hnm with
  | synthesized kind key r f last header live format type =>
    rw [(h.globalHeaders kind).get?_declared_eq key] at header
    rw [Table.agree_eq_iff.mp (h.formatsOf kind)] at format
    exact .synthesized kind key r f last header live format type
  | declared rule unhidden stated required =>
    rw [Table.agree_eq_iff.mp h.rules n] at stated
    exact .declared rule unhidden stated required

/-- What a name needs, perhaps through others, it needs after a rearrangement, too. -/
theorem needs [JsonSchema.Engine] (h : a.Matches b) (hc : a.Coherent s) (hla : a.Labelled)
    (hlb : b.Labelled) (ha : a.cddl.synthesized = Table.empty)
    (hb : b.cddl.synthesized = Table.empty) {n m : String}
    (hnm : (a.primed s).cddl.Needs n m) : (b.primed s).cddl.Needs n m := by
  have hstep : ∀ x y, y ∈ (a.primed s).cddl.required x → y ∈ (b.primed s).cddl.required x := by
    intro x y hxy
    exact ((h.coherent hc).mem_required_iff hlb hb).mpr
      (h.requires ((hc.mem_required_iff hla ha).mp hxy))
  exact Relation.ReflTransGen.mono hstep _ _ hnm

end Matches

end Draft

/-! ## Answers -/

namespace Specification

/-- The same documents, references both ways, clusters and sets of definitions in files. -/
structure SameAnswers (x y : Specification) : Prop where
  documents : x.documentNames.Perm y.documentNames
  references : ∀ name, x.referencesOf name = y.referencesOf name
  referencing : ∀ name, x.referencing name = y.referencing name
  containing : ∀ doc, x.content.clusters.containing? doc = y.content.clusters.containing? doc
  matching : ∀ names, names ≠ [] →
    x.content.clusters.matching? names = y.content.clusters.matching? names
  files : ∀ name,
    x.cddlFile name = .error (.noDefinition name) ∧ y.cddlFile name = .error (.noDefinition name) ∨
    ∃ ds es, x.content.cddl.resolve name = .ok ds ∧ y.content.cddl.resolve name = .ok es ∧
      x.cddlFile name = .ok (Cddl.renderFile name ds) ∧
      y.cddlFile name = .ok (Cddl.renderFile name es) ∧
      (ds.map Cddl.Definition.name).Perm (es.map Cddl.Definition.name)

variable {s : Settings} {root other : Json} {x y : Specification}

/-- The targets of a document are read from its fields. -/
theorem referencesOf_eq [JsonSchema.Engine] (h : ofJson s root = .ok x) (name : String) :
    x.referencesOf name = match x.content.docs.get? name with
      | some doc => .ok (ReferenceGraph.targetsOf s.referenceFormat doc)
      | none => .error (.noDocument name) := by
  obtain ⟨d, -, -, -, hcontent, hgraph⟩ := exists_of_ofJson_ok h
  have htargets := ReferenceGraph.references_ofDocuments d.docs s.referenceFormat name
  unfold referencesOf
  rw [hgraph, htargets, hcontent, Draft.docs_primed]
  cases d.docs.get? name <;> rfl

theorem targetsOf_congr {referenceFormat : String} {c d : Document} (h : c.Matches d) :
    ReferenceGraph.targetsOf referenceFormat c = ReferenceGraph.targetsOf referenceFormat d := by
  rw [NameSet.eq_iff_forall_mem]
  intro n
  simp only [ReferenceGraph.mem_targetsOf, h.metadata.get?_declared_eq]

section Answers

variable [JsonSchema.Engine] (hx : ofJson s root = .ok x) (hy : ofJson s other = .ok y)
include hx hy

theorem referencesOf_congr (h : x.content.Matches y.content) (name : String) :
    x.referencesOf name = y.referencesOf name := by
  rw [referencesOf_eq hx, referencesOf_eq hy]
  rcases h.docs.cases name with ⟨hnone, hnone'⟩ | ⟨doc, doc', hdoc, hdoc', hmatch⟩
  · rw [hnone, hnone']
  · rw [hdoc, hdoc']
    simp only
    rw [targetsOf_congr hmatch]

/-- A source is a source after a rearrangement, too. -/
theorem mem_sources_of_matches (h : x.content.Matches y.content) {name n : String}
    (hname : name ∈ x.documentNames) {sources sources' : NameSet}
    (hsources : x.referencing name = .ok sources) (hsources' : y.referencing name = .ok sources')
    (hn : n ∈ sources) : n ∈ sources' := by
  obtain ⟨_, hnext, hdocs⟩ := exists_neighbours hx .backwards hname
  rw [show x.neighbours .backwards name = .ok sources from hsources] at hnext
  cases hnext
  obtain ⟨doc, hdoc⟩ := Table.mem_keys_iff.mp (hdocs n hn)
  obtain ⟨doc', hdoc', hmatch⟩ := h.docs.exists_right hdoc
  obtain ⟨field, f, hf, hformat, htarget⟩ := (mem_referencing_iff hx hsources hdoc).mp hn
  obtain ⟨-, -, -, hsettingsX, -, -⟩ := exists_of_ofJson_ok hx
  obtain ⟨-, -, -, hsettingsY, -, -⟩ := exists_of_ofJson_ok hy
  refine (mem_referencing_iff hy hsources' hdoc').mpr ⟨field, f, ?_, ?_, htarget⟩
  · rw [← hmatch.metadata.get?_declared_eq field]
    exact hf
  · rw [hformat, hsettingsX, hsettingsY]

theorem referencing_congr (h : x.content.Matches y.content) (name : String) :
    x.referencing name = y.referencing name := by
  by_cases hname : name ∈ x.documentNames
  · have hname' : name ∈ y.documentNames := h.mem_docs_iff.mp hname
    obtain ⟨sources, hsources, -⟩ := exists_neighbours hx .backwards hname
    obtain ⟨sources', hsources', -⟩ := exists_neighbours hy .backwards hname'
    have hX : x.referencing name = .ok sources := hsources
    have hY : y.referencing name = .ok sources' := hsources'
    have hsame : sources = sources' := by
      rw [NameSet.eq_iff_forall_mem]
      intro n
      constructor
      · exact mem_sources_of_matches hx hy h hname hX hY
      · exact mem_sources_of_matches hy hx h.symm hname' hY hX
    rw [hX, hY, hsame]
  · have hname' : name ∉ y.documentNames := fun hmem => hname (h.mem_docs_iff.mpr hmem)
    exact (neighbours_of_not_mem hx .backwards hname).trans
      (neighbours_of_not_mem hy .backwards hname').symm

/-- Each lookup says what it finds, not where it stands among others. -/
theorem clusters_congr (h : x.content.Matches y.content) :
    (∀ doc, x.content.clusters.containing? doc = y.content.clusters.containing? doc) ∧
    ∀ names, names ≠ [] →
      x.content.clusters.matching? names = y.content.clusters.matching? names := by
  have hall : ∀ c, c ∈ x.content.clusters.all ↔ c ∈ y.content.clusters.all := by
    intro c
    rw [Clusters.mem_all, Clusters.mem_all]
    exact exists_congr fun name => by
      rw [Clusters.get?, Clusters.get?, Table.agree_eq_iff.mp h.clusters name]
  refine ⟨?_, ?_⟩
  · intro doc
    apply Option.ext
    intro c
    rw [Clusters.containing?_eq_some_iff (clusters_apart hx),
      Clusters.containing?_eq_some_iff (clusters_apart hy), hall]
  · intro names hnames
    apply Option.ext
    intro c
    rw [Clusters.matching?_eq_some_iff (clusters_apart hx) hnames,
      Clusters.matching?_eq_some_iff (clusters_apart hy) hnames, hall]

end Answers

theorem cddlFile_of_resolve_ok {spec : Specification} {name : String} {ds : List Cddl.Definition}
    (h : spec.content.cddl.resolve name = .ok ds) :
    spec.cddlFile name = .ok (Cddl.renderFile name ds) := by
  unfold cddlFile Cddl.Registry.file
  rw [h]
  rfl

/-- The files have the definitions that the root needs, and what it needs is the same. -/
theorem files_congr [JsonSchema.Engine] {a b : Draft} (h : a.Matches b) (hx : ofJson s root = .ok x)
    (hy : ofJson s other = .ok y) (ha : (Draft.read root).1 = some a)
    (hb : (Draft.read other).1 = some b) (hcontentX : x.content = a.primed s)
    (hcontentY : y.content = b.primed s) (hc : a.Coherent s) (name : String) :
    x.cddlFile name = .error (.noDefinition name) ∧ y.cddlFile name = .error (.noDefinition name) ∨
    ∃ ds es, x.content.cddl.resolve name = .ok ds ∧ y.content.cddl.resolve name = .ok es ∧
      x.cddlFile name = .ok (Cddl.renderFile name ds) ∧
      y.cddlFile name = .ok (Cddl.renderFile name es) ∧
      (ds.map Cddl.Definition.name).Perm (es.map Cddl.Definition.name) := by
  have hsynthesizedA := Draft.synthesized_of_read ha
  have hsynthesizedB := Draft.synthesized_of_read hb
  have hlabelledA := Draft.labelled_of_read ha
  have hlabelledB := Draft.labelled_of_read hb
  have hnames : name ∈ x.content.cddl.names ↔ name ∈ y.content.cddl.names := by
    rw [hcontentX, hcontentY, Draft.mem_names_primed hsynthesizedA,
      Draft.mem_names_primed hsynthesizedB]
    exact ⟨h.knows, h.symm.knows⟩
  by_cases hname : name ∈ x.content.cddl.names
  · obtain ⟨d, ds, hds, hresolvesX⟩ := exists_resolve_of_ofJson_ok hx hname
    obtain ⟨e, es, hes, hresolvesY⟩ := exists_resolve_of_ofJson_ok hy (hnames.mp hname)
    refine Or.inr ⟨d :: ds, e :: es, hds, hes, cddlFile_of_resolve_ok hds,
      cddlFile_of_resolve_ok hes, ?_⟩
    refine (List.perm_ext_iff_of_nodup hresolvesX.nodup hresolvesY.nodup).mpr ?_
    intro n
    rw [hresolvesX.mem_iff, hresolvesY.mem_iff, hcontentX, hcontentY]
    constructor
    · exact h.needs hc hlabelledA hlabelledB hsynthesizedA hsynthesizedB
    · exact h.symm.needs (h.coherent hc) hlabelledB hlabelledA hsynthesizedB hsynthesizedA
  · exact Or.inl ⟨cddlFile_of_not_mem hname,
      cddlFile_of_not_mem fun hmem => hname (hnames.mpr hmem)⟩

/-! ## Acceptance -/

theorem accepted_of_rearranged [JsonSchema.Engine] (h : Shape.specification.Rearranged root other)
    (hroot : ∃ x, ofJson s root = .ok x) : ∃ y, ofJson s other = .ok y := by
  rw [ofJson_ok_iff] at hroot ⊢
  obtain ⟨hclean, a, ha, hcheck⟩ := hroot
  obtain ⟨hclean', b, hb, hmatch⟩ := Draft.exists_matching_read h hclean ha
  rw [Draft.check_clean_iff (Draft.labelled_of_read ha) (Draft.synthesized_of_read ha)] at hcheck
  refine ⟨hclean', b, hb, ?_⟩
  rw [Draft.check_clean_iff (Draft.labelled_of_read hb) (Draft.synthesized_of_read hb)]
  exact hmatch.coherent hcheck

/-- The order in which sections are given, and names are declared in them and in documents,
does not decide whether a specification is accepted, nor what documents refer to, which
clusters are found and which definitions are in a file. -/
theorem declaration_order_irrelevant [JsonSchema.Engine]
    (h : Shape.specification.Rearranged root other) (s : Settings) :
    ((∃ x, ofJson s root = .ok x) ↔ ∃ y, ofJson s other = .ok y) ∧
    ∀ x y, ofJson s root = .ok x → ofJson s other = .ok y → x.SameAnswers y := by
  refine ⟨⟨accepted_of_rearranged h, accepted_of_rearranged h.symm⟩, ?_⟩
  intro x y hx hy
  obtain ⟨a, ha, hcoherent, -, hcontentX, -⟩ := exists_of_ofJson_ok hx
  obtain ⟨hclean, -⟩ := ofJson_ok_iff.mp ⟨x, hx⟩
  obtain ⟨-, b, hb, hmatch⟩ := Draft.exists_matching_read h hclean ha
  obtain ⟨b', hb', -, -, hcontentY, -⟩ := exists_of_ofJson_ok hy
  rw [hb] at hb'
  cases hb'
  have hcontent : x.content.Matches y.content := by
    rw [hcontentX, hcontentY]
    exact hmatch.primed
  obtain ⟨hcontaining, hmatching⟩ := clusters_congr hx hy hcontent
  exact {
    documents := hcontent.docs.keys_perm
    references := referencesOf_congr hx hy hcontent
    referencing := referencing_congr hx hy hcontent
    containing := hcontaining
    matching := hmatching
    files := files_congr hmatch hx hy ha hb hcontentX hcontentY hcoherent }

/-- Letters and replies in another order, in a specification with its sections in another
order. -/
def rearrangedReplies : Json :=
  let reversed : Json → Json
    | .object entries => .object entries.reverse
    | v => v
  reversed (replies.replace ["docs"] (reversed ((replies.get? "docs").getD .null)))

/-- It is accepted, and answers are the same, although its documents are listed in another
order. -/
theorem rearrangedReplies_answers : Shape.specification.Rearranged replies rearrangedReplies ∧
    ∃ x y, ofJson .default replies = .ok x ∧ ofJson .default rearrangedReplies = .ok y ∧
      x.SameAnswers y ∧ x.documentNames = ["letter", "reply"] ∧
      y.documentNames = ["reply", "letter"] := by
  have hdocs : (Shape.named .document).Rearranged ((replies.get? "docs").getD .null) _ :=
    Shape.rearranged_of_perm (List.reverse_perm _).symm (by decide)
  have hrearranged : Shape.specification.Rearranged replies rearrangedReplies :=
    (Shape.Rearranged.replace rfl rfl hdocs).trans
      (Shape.rearranged_of_perm (List.reverse_perm _).symm (by decide))
  have hload : ofJson .default replies = .ok _ := rfl
  have hload' : ofJson .default rearrangedReplies = .ok _ := rfl
  obtain ⟨-, hsame⟩ := declaration_order_irrelevant hrearranged .default
  exact ⟨hrearranged, _, _, hload, hload', hsame _ _ hload hload', by decide, by decide⟩

end Specification

end SignedDocs
