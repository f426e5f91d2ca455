import SignedDocs.JsonSchema.MetaSchema
import SignedDocs.Proofs.Acceptance
import SignedDocs.Proofs.GroupSynthesis
import SignedDocs.Proofs.Resolution

/-!
Definitions of accepted specifications.

* `Coherent.exists_synthesize`: every header set of a coherent draft has a definition, and it
  requires known names only.
* `Complete`: registries in which every name has a definition. Once all kinds of headers are
  synthesized, that of a coherent draft is complete (`Coherent.complete_primed`).
* `synthesis_never_fails`: no question about an accepted specification fails with a
  synthesis.
* `cddlFile_outcome`: which names have a file, and what is in it.
-/

namespace SignedDocs

/-! ## Complete registries -/

namespace Cddl.Registry

/-- Every name has a definition, and what it requires are names, too. -/
def Complete (r : Registry) : Prop :=
  ∀ n ∈ r.names, ∃ d, r.get n = .ok d ∧ ∀ m ∈ d.rule.requires, m ∈ r.names

variable {r : Registry}

/-- Whatever a name needs is a name. -/
theorem Complete.mem_of_needs (h : r.Complete) {root n : String} (hroot : root ∈ r.names)
    (hn : r.Needs root n) : n ∈ r.names := by
  induction hn with
  | refl => exact hroot
  | tail _ hstep ih =>
    obtain ⟨d, hd, hrequires⟩ := h _ ih
    rw [required_of_get hd] at hstep
    exact hrequires _ hstep

/-- All names can be resolved. -/
theorem Complete.exists_resolve (h : r.Complete) (hn : r.Named) {root : String}
    (hroot : root ∈ r.names) : ∃ ds, r.resolve root = .ok ds ∧ r.Resolves root ds := by
  obtain ⟨order, ho, hresolve⟩ := exists_preorder_resolve hn root
  have hall : ∀ n ∈ order, ∃ d, r.get n = .ok d := by
    intro n hmem
    obtain ⟨d, hd, -⟩ := h n (h.mem_of_needs hroot (ho.mem_iff.mp hmem))
    exact ⟨d, hd⟩
  obtain ⟨ds, hds⟩ := mapM_ok_iff.mpr hall
  exact ⟨ds, hresolve.trans hds, resolves_of_mapM hn ho hds⟩

/-- Other names cannot. -/
theorem resolve_eq_notFound {root : String} (h : root ∉ r.names) :
    r.resolve root = .error (.notFound root) := by
  unfold resolve visit
  rw [get_eq_notFound_iff.mpr h]
  rfl

end Cddl.Registry

/-! ## Syntheses -/

/-- Headers of a sound scope have a definition; it requires types of their formats only. -/
theorem FieldSet.Sound.exists_synthesize {hs : FieldSet HeaderRule} {formats : Formats}
    (h : hs.Sound formats) (hn : hs.Named) (name : String) (base : Option Cddl.Rule) :
    ∃ e, Cddl.synthesize name base hs.all formats = .ok e ∧ e.name = name ∧
      ∀ n ∈ e.rule.requires, ∃ format f, formats.get? format = some f ∧ f.cddl = n := by
  have hmembers : ∀ x ∈ Cddl.Group.live hs.all, ∀ m ∈ x.record.exclusive,
      m ∈ hs.all.map Scoped.name := by
    intro x hx m hm
    have hget := hn.mem_all.mp (List.mem_filter.mp hx).1
    have hdeclared := get?_declared_eq_some_iff.mpr ⟨x, hget, rfl⟩
    obtain ⟨partner, hp⟩ :=
      exists_get?_of_mem_names (mem_names.mpr (h.within x.name m ⟨x.record, hdeclared, hm⟩))
    exact List.mem_map.mpr ⟨partner, mem_all.mpr ⟨m, hp⟩, hn m partner hp⟩
  have hformats : ∀ x ∈ Cddl.Group.live hs.all, x.record.format ∈ formats.keys := by
    intro x hx
    exact forall_mem_all.mpr h.formats x (List.mem_filter.mp hx).1
  obtain ⟨g, hg⟩ := Cddl.Group.exists_ofHeaders hmembers hformats
  refine ⟨g.definition name base, Cddl.Group.synthesize_eq_ok_iff.mpr ⟨g, hg, rfl⟩, rfl, ?_⟩
  intro n hn
  exact Cddl.Group.exists_format_of_mem_requires hg hn

namespace Draft

variable {d : Draft} {s : Settings}

section Coherent

variable [JsonSchema.Engine]

/-- The headers of each kind are those of a sound scope. -/
theorem Coherent.exists_sound (h : d.Coherent s) (hl : d.Labelled) (kind : HeaderKind)
    {doc : Option Document} (hdoc : ∀ t, doc = some t → ∃ name, d.docs.get? name = some t) :
    ∃ hs : FieldSet HeaderRule,
      d.headersOf kind doc = hs.all ∧ hs.Sound (d.formatsOf kind) ∧ hs.Named := by
  cases doc with
  | none =>
    cases kind with
    | document => exact ⟨_, rfl, h.headers, hl.headers.named.map _⟩
    | signature => exact ⟨_, rfl, h.signature, hl.signature.named.map _⟩
    | metadata => exact ⟨_, rfl, h.metadata, hl.fields.named.map _⟩
  | some t =>
    obtain ⟨name, ht⟩ := hdoc t rfl
    cases kind with
    | document => exact ⟨_, rfl, h.docHeaders name t ht, (hl.docHeaders name t ht).named.map _⟩
    | signature => exact ⟨_, rfl, h.signature, hl.signature.named.map _⟩
    | metadata => exact ⟨_, rfl, h.docMetadata name t ht, (hl.docFields name t ht).named.map _⟩

/-- Types of formats are known, whatever headers they are for. -/
theorem Coherent.knows_type (h : d.Coherent s) (kind : HeaderKind) {format : String}
    {f : ValueFormat} (hf : (d.formatsOf kind).get? format = some f) : d.Knows s f.cddl := by
  cases kind with
  | document => exact h.headerTypes format f hf
  | signature => exact h.headerTypes format f hf
  | metadata => exact h.metadataTypes format f hf

/-- Each set of headers has a definition under any name; it requires known names only. -/
theorem Coherent.exists_synthesize (h : d.Coherent s) (hl : d.Labelled) (name : String)
    (kind : HeaderKind) {doc : Option Document}
    (hdoc : ∀ t, doc = some t → ∃ key, d.docs.get? key = some t) :
    ∃ e, d.synthesize name kind doc = .ok e ∧ e.name = name ∧
      ∀ n ∈ e.rule.requires, d.Knows s n := by
  obtain ⟨hs, hall, hsound, hn⟩ := h.exists_sound hl kind hdoc
  obtain ⟨e, he, hname, hrequires⟩ :=
    hsound.exists_synthesize hn name (d.cddl.declared.get? name)
  refine ⟨e, ?_, hname, ?_⟩
  · unfold synthesize
    rw [hall, he]
  · intro n hn
    obtain ⟨format, f, hf, rfl⟩ := hrequires n hn
    exact h.knows_type kind hf

theorem Coherent.exists_synthesize_none (h : d.Coherent s) (hl : d.Labelled) (name : String)
    (kind : HeaderKind) : ∃ e, d.synthesize name kind none = .ok e ∧ e.name = name ∧
      ∀ n ∈ e.rule.requires, d.Knows s n :=
  h.exists_synthesize hl name kind fun _ ht => by cases ht

end Coherent

theorem name_of_synthesize {name : String} {kind : HeaderKind} {doc : Option Document}
    {e : Cddl.Definition} (h : d.synthesize name kind doc = .ok e) : e.name = name := by
  obtain ⟨g, -, rfl⟩ := Cddl.Group.synthesize_eq_ok_iff.mp h
  rfl

/-! ## Primed drafts -/

theorem mem_names_primed (hd : d.cddl.synthesized = Table.empty) {n : String} :
    n ∈ (d.primed s).cddl.names ↔ d.Knows s n := by
  rw [Cddl.Registry.mem_names, declared_primed, mem_keys_synthesized_primed hd]
  rfl

/-- Each synthesis is stored under the name it carries. -/
theorem named_foldl_prime (kinds : List HeaderKind) (h : d.cddl.Named) :
    (kinds.foldl (prime s) d).cddl.Named := by
  induction kinds generalizing d with
  | nil => exact h
  | cons kind kinds ih => exact ih (h.addSynthesized fun _ he => name_of_synthesize he)

theorem named_primed (hl : d.Labelled) (hd : d.cddl.synthesized = Table.empty) :
    (d.primed s).cddl.Named :=
  named_foldl_prime HeaderKind.all (Cddl.Registry.named_of_declared hd hl.definitions)

/-- Syntheses do not fail, and so every name gets a definition; it requires names only
that have one, too. -/
theorem Coherent.complete_primed [JsonSchema.Engine] (h : d.Coherent s) (hl : d.Labelled)
    (hd : d.cddl.synthesized = Table.empty) : (d.primed s).cddl.Complete := by
  intro n hn
  simp only [mem_names_primed hd]
  -- a synthesis hides a declared rule of its name, so it is looked for first
  by_cases hs : n ∈ (d.primed s).cddl.synthesized.keys
  · obtain ⟨outcome, houtcome⟩ := Table.mem_keys_iff.mp hs
    obtain ⟨kind, -, rfl⟩ := exists_kind_of_get?_primed hd houtcome
    obtain ⟨e, he, -, hrequires⟩ := h.exists_synthesize_none hl n kind
    rw [he] at houtcome
    exact ⟨e, Cddl.Registry.get_eq_ok_iff.mpr (Or.inl houtcome), hrequires⟩
  · have hdeclared := (Cddl.Registry.mem_names.mp hn).resolve_right hs
    obtain ⟨rule, hrule⟩ := Table.mem_keys_iff.mp hdeclared
    obtain ⟨e, he, rfl⟩ := Cddl.Registry.get?_declared_eq_some_iff.mp hrule
    refine ⟨e, Cddl.Registry.get_eq_ok_iff.mpr (Or.inr ?_), ?_⟩
    · exact ⟨Table.get?_eq_none_iff.mpr hs, he⟩
    · rw [declared_primed] at hrule
      exact h.requirements n e.rule hrule

end Draft

/-! ## Accepted specifications -/

namespace Specification

variable {s : Settings} {root : Json} {spec : Specification}

/-- Where a definition comes from: from a synthesis if its name is that of a kind of
headers, from a declared rule otherwise. -/
inductive Origin (spec : Specification) (e : Cddl.Definition) : Prop where
  | synthesized (kind : HeaderKind) (named : spec.settings.definitionName kind = e.name)
      (synthesis : spec.synthesize kind none = .ok e)
  | declared (unhidden : e.name ∉ spec.settings.synthesizedNames)
      (rule : spec.content.cddl.declared.get? e.name = some e.rule)

theorem definition_of_not_mem {name : String} (h : name ∉ spec.content.cddl.names) :
    spec.definition name = .error (.noDefinition name) := by
  unfold definition
  rw [Cddl.Registry.get_eq_notFound_iff.mpr h]
  rfl

theorem cddlFile_of_not_mem {name : String} (h : name ∉ spec.content.cddl.names) :
    spec.cddlFile name = .error (.noDefinition name) := by
  unfold cddlFile Cddl.Registry.file
  rw [Cddl.Registry.resolve_eq_notFound h]
  rfl

theorem cddlFile_of_resolve {name : String} {d : Cddl.Definition} {ds : List Cddl.Definition}
    (h : spec.content.cddl.resolve name = .ok (d :: ds)) :
    spec.cddlFile name = .ok (Cddl.comment ((Cddl.visible? d.rule.description).getD name) ++
      "\n\n\n" ++ Text.join "\n\n" ((d :: ds).map Cddl.renderRule) ++ "\n") := by
  unfold cddlFile Cddl.Registry.file
  rw [h]
  rfl

theorem synthesize_none (kind : HeaderKind) :
    spec.synthesize kind none =
      (spec.content.synthesize (spec.settings.definitionName kind) kind none).mapError .synthesis :=
  rfl

theorem synthesize_of_get? (kind : HeaderKind) {name : String} {doc : Document}
    (h : spec.content.docs.get? name = some doc) :
    spec.synthesize kind (some name) =
      (spec.content.synthesize (spec.settings.definitionName kind) kind (some doc)).mapError
        .synthesis := by
  unfold synthesize
  rw [Option.mapM_some, document_eq_ok_iff.mpr h]
  rfl

theorem synthesize_of_not_mem (kind : HeaderKind) {name : String} (h : name ∉ spec.documentNames) :
    spec.synthesize kind (some name) = .error (.noDocument name) := by
  unfold synthesize
  rw [Option.mapM_some, document_of_not_mem h]
  rfl

section Accepted

variable [JsonSchema.Engine] (h : ofJson s root = .ok spec)
include h

/-- The registry is complete, and definitions are stored under their names. -/
theorem complete_of_ofJson_ok : spec.content.cddl.Complete ∧ spec.content.cddl.Named := by
  obtain ⟨d, hread, hcoherent, -, hcontent, -⟩ := exists_of_ofJson_ok h
  have hd := Draft.synthesized_of_read hread
  have hl := Draft.labelled_of_read hread
  rw [hcontent]
  exact ⟨hcoherent.complete_primed hl hd, Draft.named_primed hl hd⟩

/-- Global headers, and those of any document, have a definition. -/
theorem exists_synthesize_of_ofJson_ok (kind : HeaderKind) :
    (∃ e, spec.synthesize kind none = .ok e) ∧
    ∀ name ∈ spec.documentNames, ∃ e, spec.synthesize kind (some name) = .ok e := by
  obtain ⟨d, hread, hcoherent, -, hcontent, -⟩ := exists_of_ofJson_ok h
  have hl := Draft.labelled_of_read hread
  constructor
  · obtain ⟨e, he, -⟩ :=
      hcoherent.exists_synthesize_none hl (spec.settings.definitionName kind) kind
    refine ⟨e, ?_⟩
    rw [synthesize_none, hcontent, Draft.synthesize_primed, he]
    rfl
  · intro name hname
    obtain ⟨doc, hdoc⟩ := Table.mem_keys_iff.mp hname
    have hdocs : ∀ t, some doc = some t → ∃ key, d.docs.get? key = some t := by
      rintro t ⟨⟩
      rw [hcontent, Draft.docs_primed] at hdoc
      exact ⟨name, hdoc⟩
    obtain ⟨e, he, -⟩ :=
      hcoherent.exists_synthesize hl (spec.settings.definitionName kind) kind hdocs
    refine ⟨e, ?_⟩
    rw [synthesize_of_get? kind hdoc, hcontent, Draft.synthesize_primed, he]
    rfl

/-- What is stored as synthesized is what a synthesis of that name gives. -/
theorem exists_kind_of_stored {n : String} {outcome : Except Cddl.GroupError Cddl.Definition}
    (ho : spec.content.cddl.synthesized.get? n = some outcome) :
    ∃ kind e, spec.settings.definitionName kind = n ∧ outcome = .ok e ∧
      spec.synthesize kind none = .ok e := by
  obtain ⟨d, hread, hcoherent, hsettings, hcontent, -⟩ := exists_of_ofJson_ok h
  rw [hcontent] at ho
  obtain ⟨kind, rfl, rfl⟩ := Draft.exists_kind_of_get?_primed (Draft.synthesized_of_read hread) ho
  obtain ⟨e, he, -⟩ := hcoherent.exists_synthesize_none (Draft.labelled_of_read hread)
    (s.definitionName kind) kind
  refine ⟨kind, e, by rw [hsettings], he, ?_⟩
  rw [synthesize_none, hsettings, hcontent, Draft.synthesize_primed, he]
  rfl

theorem mem_keys_synthesized_iff {n : String} :
    n ∈ spec.content.cddl.synthesized.keys ↔ n ∈ spec.settings.synthesizedNames := by
  obtain ⟨d, hread, -, hsettings, hcontent, -⟩ := exists_of_ofJson_ok h
  rw [hsettings, hcontent]
  exact Draft.mem_keys_synthesized_primed (Draft.synthesized_of_read hread)

theorem exists_resolve_of_ofJson_ok {name : String} (hname : name ∈ spec.content.cddl.names) :
    ∃ d ds, spec.content.cddl.resolve name = .ok (d :: ds) ∧
      spec.content.cddl.Resolves name (d :: ds) := by
  obtain ⟨hcomplete, hnamed⟩ := complete_of_ofJson_ok h
  obtain ⟨ds, hresolve, hresolves⟩ := hcomplete.exists_resolve hnamed hname
  obtain ⟨d, rest, rfl, -⟩ := hresolves.first
  exact ⟨d, rest, hresolve, hresolves⟩

theorem origin_of_get {n : String} {e : Cddl.Definition}
    (hget : spec.content.cddl.get n = .ok e) : spec.Origin e := by
  have hname := (complete_of_ofJson_ok h).2 n e hget
  rcases Cddl.Registry.get_eq_ok_iff.mp hget with hstored | ⟨hnone, hdeclared⟩
  · obtain ⟨kind, e', hkind, he, hsynthesis⟩ := exists_kind_of_stored h hstored
    cases he
    exact .synthesized kind (hkind.trans hname.symm) hsynthesis
  · subst hname
    refine .declared ?_ (Cddl.Registry.get?_declared_eq_some_iff.mpr ⟨e, hdeclared, rfl⟩)
    rw [← mem_keys_synthesized_iff h]
    exact Table.get?_eq_none_iff.mp hnone

theorem definition_ne_synthesis (name : String) (reason : Cddl.GroupError) :
    spec.definition name ≠ .error (.synthesis reason) := by
  intro hfail
  by_cases hname : name ∈ spec.content.cddl.names
  · obtain ⟨e, he, -⟩ := (complete_of_ofJson_ok h).1 name hname
    unfold definition at hfail
    rw [he] at hfail
    cases hfail
  · rw [definition_of_not_mem hname] at hfail
    cases hfail

theorem cddlFile_ne_synthesis (name : String) (reason : Cddl.GroupError) :
    spec.cddlFile name ≠ .error (.synthesis reason) := by
  intro hfail
  by_cases hname : name ∈ spec.content.cddl.names
  · obtain ⟨d, ds, hresolve, -⟩ := exists_resolve_of_ofJson_ok h hname
    rw [cddlFile_of_resolve hresolve] at hfail
    cases hfail
  · rw [cddlFile_of_not_mem hname] at hfail
    cases hfail

/-- A document that does not exist is the only obstacle. -/
theorem synthesize_ne_synthesis (kind : HeaderKind) (doc : Option String)
    (reason : Cddl.GroupError) : spec.synthesize kind doc ≠ .error (.synthesis reason) := by
  intro hfail
  cases doc with
  | none =>
    obtain ⟨e, he⟩ := (exists_synthesize_of_ofJson_ok h kind).1
    rw [he] at hfail
    cases hfail
  | some name =>
    by_cases hname : name ∈ spec.documentNames
    · obtain ⟨e, he⟩ := (exists_synthesize_of_ofJson_ok h kind).2 name hname
      rw [he] at hfail
      cases hfail
    · rw [synthesize_of_not_mem kind hname] at hfail
      cases hfail

end Accepted

/-- Syntheses do not fail once a specification is accepted: the stored definitions are there,
those of any headers can be had anew, and no question is answered by a failed synthesis. -/
theorem synthesis_never_fails [JsonSchema.Engine] (h : ofJson s root = .ok spec) :
    (∀ kind, ∃ e, spec.content.cddl.synthesized.get? (spec.settings.definitionName kind) =
      some (.ok e)) ∧
    (∀ kind, ∃ e, spec.synthesize kind none = .ok e) ∧
    (∀ kind, ∀ doc ∈ spec.documentNames, ∃ e, spec.synthesize kind (some doc) = .ok e) ∧
    ∀ reason, (∀ name, spec.definition name ≠ .error (.synthesis reason)) ∧
      (∀ name, spec.cddlFile name ≠ .error (.synthesis reason)) ∧
      ∀ kind doc, spec.synthesize kind doc ≠ .error (.synthesis reason) := by
  have hsynthesize := exists_synthesize_of_ofJson_ok h
  refine ⟨?_, fun kind => (hsynthesize kind).1, fun kind => (hsynthesize kind).2, ?_⟩
  · intro kind
    have hkey := (mem_keys_synthesized_iff h).mpr (Draft.mem_synthesizedNames.mpr ⟨kind, rfl⟩)
    obtain ⟨outcome, hstored⟩ := Table.mem_keys_iff.mp hkey
    obtain ⟨-, e, -, rfl, -⟩ := exists_kind_of_stored h hstored
    exact ⟨e, hstored⟩
  · intro reason
    exact ⟨fun name => definition_ne_synthesis h name reason,
      fun name => cddlFile_ne_synthesis h name reason,
      fun kind doc => synthesize_ne_synthesis h kind doc reason⟩

/-- Letters with a subject. -/
def letters : Json :=
  let empty := Json.object []
  let versions := Json.array [.object [("version", .string "1"), ("modified", .string "2024-01-01"),
    ("changes", .string "")]]
  let subject := Json.object [("subject", .object [("description", .string ""),
    ("required", .string "optional"), ("format", .string "Text")])]
  .object [("authors", empty), ("base_types", empty),
    ("cddlDefinitions", .object [
      ("letter", .object [("def", .string "[Signed_Document_Metadata_Headers, text]"),
        ("requires", .array [.string "Signed_Document_Metadata_Headers"])]),
      ("text", .object [("def", .string "tstr"), ("requires", .array [])])]),
    ("contentTypes", empty),
    ("copyright", .object [("publisher", .string ""), ("copyright", .string ""),
      ("license", .string ""), ("created", .string "2024-01-01"), ("versions", versions)]),
    ("cose", .object [("headerFormats", empty), ("headers", empty), ("headersOrder", .array []),
      ("signature_headers", empty)]),
    ("docClusters", empty),
    ("docs", .object [("letter", .object [
      ("type", .array [.string "7808d2ba-d511-40af-84e8-c0d1625fdfdc"]), ("headers", empty),
      ("metadata", subject), ("signers", .object [("roles", empty)]), ("authors", empty),
      ("versions", versions)])]),
    ("documentationLinks", empty), ("encodingTypes", empty), ("linkAKA", empty),
    ("metadata", .object [("headers", subject), ("formats", .object [("Text", .object [
      ("cddl", .string "text"), ("description", .string "")])]), ("order", .array [])])]

/-- The subject of a letter has a definition of its own. -/
theorem letters_synthesized : ∃ spec, ofJson .default letters = .ok spec ∧
    "letter" ∈ spec.documentNames ∧ ∃ e, spec.synthesize .metadata (some "letter") = .ok e := by
  have hload : ofJson .default letters = .ok _ := rfl
  exact ⟨_, hload, by decide, (synthesis_never_fails hload).2.2.1 .metadata "letter" (by decide)⟩

/-- The files of a specification: each of its names has one, and no other name has. The file
consists of a description and the rules of all that the name needs, each once, in the order in
which they are met. -/
theorem cddlFile_outcome [JsonSchema.Engine] (h : ofJson s root = .ok spec) (name : String) :
    (name ∉ spec.content.cddl.names → spec.cddlFile name = .error (.noDefinition name)) ∧
    (name ∈ spec.content.cddl.names → ∃ d ds,
      spec.content.cddl.resolve name = .ok (d :: ds) ∧
      spec.content.cddl.Resolves name (d :: ds) ∧
      (∀ e ∈ d :: ds, spec.Origin e) ∧
      spec.cddlFile name = .ok (Cddl.comment ((Cddl.visible? d.rule.description).getD name) ++
        "\n\n\n" ++ Text.join "\n\n" ((d :: ds).map Cddl.renderRule) ++ "\n")) := by
  refine ⟨cddlFile_of_not_mem, ?_⟩
  intro hname
  obtain ⟨d, ds, hresolve, hresolves⟩ := exists_resolve_of_ofJson_ok h hname
  refine ⟨d, ds, hresolve, hresolves, ?_, cddlFile_of_resolve hresolve⟩
  intro e he
  exact origin_of_get h (hresolves.stored e he)

/-- A letter needs its metadata, and they need a text. -/
theorem letters_file : ∃ spec, ofJson .default letters = .ok spec ∧
    spec.cddlFile "text" = .ok "; text\n\n\ntext = tstr\n" ∧
    spec.cddlFile "envelope" = .error (.noDefinition "envelope") ∧
    ∃ ds, spec.content.cddl.Resolves "letter" ds ∧
      ds.map Cddl.Definition.name = ["letter", "Signed_Document_Metadata_Headers", "text"] := by
  have hload : ofJson .default letters = .ok _ := rfl
  obtain ⟨d, ds, hresolve, hresolves, -⟩ := (cddlFile_outcome hload "letter").2 (by decide)
  refine ⟨_, hload, rfl, (cddlFile_outcome hload "envelope").1 (by decide), d :: ds, hresolves, ?_⟩
  cases hresolve
  rfl

end Specification

end SignedDocs
