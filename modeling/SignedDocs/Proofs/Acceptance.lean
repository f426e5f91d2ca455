import SignedDocs.Proofs.Coherence
import SignedDocs.Proofs.Rejection

/-!
Acceptance: what an accepted specification consists of.

* `exists_of_ofJson_ok`: a coherent draft with its graph and its syntheses.
* `Draft.primed`: the draft with all syntheses; nothing else changes.
* `get?_synthesized_primed`: under each name the last synthesis for it is found.
-/

namespace SignedDocs

namespace Draft

variable {d : Draft} {s : Settings}

/-- The draft with the synthesized definitions of all kinds. -/
def primed (s : Settings) (d : Draft) : Draft := HeaderKind.all.foldl (prime s) d

/-- Everything but the synthesized definitions stays. -/
theorem foldl_prime_eq (kinds : List HeaderKind) (d : Draft) :
    kinds.foldl (prime s) d = { d with cddl :=
      { d.cddl with synthesized := (kinds.foldl (prime s) d).cddl.synthesized } } := by
  induction kinds generalizing d with
  | nil => rfl
  | cons kind kinds ih => exact ih (d.prime s kind)

/-- Syntheses do not depend on each other. -/
theorem synthesize_of_synthesized (d : Draft)
    (t : Table (Except Cddl.GroupError Cddl.Definition)) (name : String) (kind : HeaderKind)
    (doc : Option Document) :
    ({ d with cddl := { d.cddl with synthesized := t } } : Draft).synthesize name kind doc =
      d.synthesize name kind doc := by
  cases kind <;> cases doc <;> rfl

theorem get?_synthesized_prime (d : Draft) (kind : HeaderKind) (n : String) :
    (d.prime s kind).cddl.synthesized.get? n =
      if s.definitionName kind = n then some (d.synthesize n kind none)
      else d.cddl.synthesized.get? n := by
  have hget := Table.get?_insert d.cddl.synthesized (s.definitionName kind)
    (d.synthesize (s.definitionName kind) kind none) n
  refine hget.trans ?_
  by_cases h : s.definitionName kind = n
  · simp [h]
  · rw [if_neg h, if_neg fun h' => h h'.symm]

/-- Under a name stands the last synthesis that was stored there. -/
theorem get?_synthesized_foldl_prime (kinds : List HeaderKind) (d : Draft) (n : String) :
    (kinds.foldl (prime s) d).cddl.synthesized.get? n =
      ((kinds.reverse.find? fun kind => s.definitionName kind = n).map fun kind =>
        d.synthesize n kind none).or (d.cddl.synthesized.get? n) := by
  induction kinds generalizing d with
  | nil => rfl
  | cons kind kinds ih =>
    have hsame : ∀ k, (d.prime s kind).synthesize n k none = d.synthesize n k none := fun k =>
      synthesize_of_synthesized d _ n k none
    rw [List.foldl_cons, ih, get?_synthesized_prime, List.reverse_cons, List.find?_append]
    simp only [hsame]
    cases kinds.reverse.find? fun k => s.definitionName k = n with
    | some k => rfl
    | none => by_cases h : s.definitionName kind = n <;> simp [h]

/-! ## Primed drafts -/

theorem definitions_primed (s : Settings) (d : Draft) :
    (d.primed s).cddl.definitions = d.cddl.definitions := by
  unfold primed
  rw [foldl_prime_eq]

theorem declared_primed (s : Settings) (d : Draft) :
    (d.primed s).cddl.declared = d.cddl.declared := by
  unfold Cddl.Registry.declared
  rw [definitions_primed]

theorem docs_primed (s : Settings) (d : Draft) : (d.primed s).docs = d.docs := by
  unfold primed
  rw [foldl_prime_eq]

theorem clusters_primed (s : Settings) (d : Draft) : (d.primed s).clusters = d.clusters := by
  unfold primed
  rw [foldl_prime_eq]

theorem links_primed (s : Settings) (d : Draft) : (d.primed s).links = d.links := by
  unfold primed
  rw [foldl_prime_eq]

theorem copyright_primed (s : Settings) (d : Draft) : (d.primed s).copyright = d.copyright := by
  unfold primed
  rw [foldl_prime_eq]

theorem synthesize_primed (s : Settings) (d : Draft) (name : String) (kind : HeaderKind)
    (doc : Option Document) : (d.primed s).synthesize name kind doc = d.synthesize name kind doc := by
  unfold primed
  rw [foldl_prime_eq]
  exact synthesize_of_synthesized d _ name kind doc

theorem mem_synthesizedNames {n : String} :
    n ∈ s.synthesizedNames ↔ ∃ kind, s.definitionName kind = n := by
  unfold Settings.synthesizedNames
  constructor
  · intro h
    rw [List.mem_cons, List.mem_cons, List.mem_singleton] at h
    rcases h with rfl | rfl | rfl
    · exact ⟨.document, rfl⟩
    · exact ⟨.signature, rfl⟩
    · exact ⟨.metadata, rfl⟩
  · rintro ⟨kind, rfl⟩
    cases kind <;> simp [Settings.definitionName]

/-- Nothing but syntheses of kinds is stored, and only the last one of each name. -/
theorem get?_synthesized_primed (hd : d.cddl.synthesized = Table.empty) (n : String) :
    (d.primed s).cddl.synthesized.get? n =
      (HeaderKind.all.reverse.find? fun kind => s.definitionName kind = n).map fun kind =>
        d.synthesize n kind none := by
  unfold primed
  rw [get?_synthesized_foldl_prime, hd]
  exact Option.or_none

theorem exists_kind_of_get?_primed (hd : d.cddl.synthesized = Table.empty) {n : String}
    {outcome : Except Cddl.GroupError Cddl.Definition}
    (h : (d.primed s).cddl.synthesized.get? n = some outcome) :
    ∃ kind, s.definitionName kind = n ∧ d.synthesize n kind none = outcome := by
  rw [get?_synthesized_primed hd, Option.map_eq_some_iff] at h
  obtain ⟨kind, hkind, rfl⟩ := h
  exact ⟨kind, by simpa using List.find?_some hkind, rfl⟩

/-- Every kind has its synthesis, stored under the name of the kind. -/
theorem mem_keys_synthesized_primed (hd : d.cddl.synthesized = Table.empty) {n : String} :
    n ∈ (d.primed s).cddl.synthesized.keys ↔ n ∈ s.synthesizedNames := by
  rw [mem_synthesizedNames, Table.mem_keys_iff]
  constructor
  · rintro ⟨outcome, h⟩
    obtain ⟨kind, hkind, -⟩ := exists_kind_of_get?_primed hd h
    exact ⟨kind, hkind⟩
  · rintro ⟨kind, rfl⟩
    have hlisted : kind ∈ HeaderKind.all.reverse := by cases kind <;> decide
    have hfound : (HeaderKind.all.reverse.find? fun k =>
        s.definitionName k = s.definitionName kind).isSome :=
      List.find?_isSome.mpr ⟨kind, hlisted, decide_eq_true rfl⟩
    obtain ⟨last, hlast⟩ := Option.isSome_iff_exists.mp hfound
    exact ⟨d.synthesize (s.definitionName kind) last none, by
      rw [get?_synthesized_primed hd, hlast, Option.map_some]⟩

end Draft

namespace Specification

variable {s : Settings} {root : Json} {spec : Specification}

theorem document_eq_ok_iff {name : String} {d : Document} :
    spec.document name = .ok d ↔ spec.content.docs.get? name = some d := by
  unfold document
  cases spec.content.docs.get? name <;> simp

theorem exists_document {name : String} (h : name ∈ spec.documentNames) :
    ∃ d, spec.content.docs.get? name = some d ∧ spec.document name = .ok d := by
  obtain ⟨d, hd⟩ := Table.mem_keys_iff.mp h
  exact ⟨d, hd, document_eq_ok_iff.mpr hd⟩

theorem document_of_not_mem {name : String} (h : name ∉ spec.documentNames) :
    spec.document name = .error (.noDocument name) := by
  unfold document
  rw [Table.get?_eq_none_iff.mpr h]

/-- An accepted value is a coherent draft; the rest is derived from it. -/
theorem exists_of_ofJson_ok [JsonSchema.Engine] (h : ofJson s root = .ok spec) :
    ∃ d, (Draft.read root).1 = some d ∧ d.Coherent s ∧ spec.settings = s ∧
      spec.content = d.primed s ∧
      spec.graph = .ofDocuments d.docs s.referenceFormat := by
  obtain ⟨-, d, hd, hcheck⟩ := ofJson_ok_iff.mp ⟨spec, h⟩
  have hcoherent :=
    (Draft.check_clean_iff (Draft.labelled_of_read hd) (Draft.synthesized_of_read hd)).mp hcheck
  rw [ofJson_eq, hd] at h
  unfold build at h
  simp only at h
  split at h
  · cases h
    exact ⟨d, hd, hcoherent, rfl, rfl, rfl⟩
  · cases h

end Specification

end SignedDocs
