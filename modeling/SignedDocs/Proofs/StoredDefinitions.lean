import SignedDocs.Proofs.Definitions

/-!
Stored definitions and fresh ones: what is found under the name of a kind of headers.

* `Settings.StoredLast`: kinds may share a name, and then the last one of them is stored.
* `Draft.get?_synthesized_storedLast`: a synthesis reads nothing that an earlier one stored,
  so the stored definition is that of a synthesis afterwards.
* `definition_of_kind`: the definition under the name of a kind is the fresh one of the
  last kind of that name, and of the kind itself if it shares its name with no other.

With a name for two kinds only one of them has its definition there
(`letters_sharedName`).
-/

namespace SignedDocs

/-- The last kind that has the name of a kind. -/
structure Settings.StoredLast (s : Settings) (kind last : HeaderKind) : Prop where
  named : s.definitionName last = s.definitionName kind
  final : ∃ before after, HeaderKind.all = before ++ last :: after ∧
    ∀ k ∈ after, s.definitionName k ≠ s.definitionName kind

theorem HeaderKind.mem_all (kind : HeaderKind) : kind ∈ HeaderKind.all := by
  cases kind <;> decide

namespace Draft

variable {d : Draft} {s : Settings}

/-- Under the name of a kind the synthesis of the last kind of that name is stored. -/
theorem get?_synthesized_storedLast (hd : d.cddl.synthesized = Table.empty) (kind : HeaderKind) :
    ∃ last, s.StoredLast kind last ∧
      (d.primed s).cddl.synthesized.get? (s.definitionName kind) =
        some (d.synthesize (s.definitionName last) last none) := by
  have hlisted : kind ∈ HeaderKind.all.reverse := List.mem_reverse.mpr kind.mem_all
  have hfound : (HeaderKind.all.reverse.find? fun k =>
      s.definitionName k = s.definitionName kind).isSome :=
    List.find?_isSome.mpr ⟨kind, hlisted, decide_eq_true rfl⟩
  obtain ⟨last, hlast⟩ := Option.isSome_iff_exists.mp hfound
  obtain ⟨hnamed, after, before, hall, hafter⟩ := List.find?_eq_some_iff_append.mp hlast
  have hnamed : s.definitionName last = s.definitionName kind := by simpa using hnamed
  refine ⟨last, ⟨hnamed, before.reverse, after.reverse, ?_, ?_⟩, ?_⟩
  · rw [← List.reverse_reverse HeaderKind.all, hall]
    simp
  · intro k hk
    have hother := hafter k (List.mem_reverse.mp hk)
    simpa using hother
  · rw [get?_synthesized_primed hd, hlast, Option.map_some, hnamed]

end Draft

namespace Specification

variable {s : Settings} {root : Json} {spec : Specification}

/-- What is stored hides a declared definition. -/
theorem definition_of_stored {name : String} {e : Cddl.Definition}
    (hstored : spec.content.cddl.synthesized.get? name = some (.ok e)) :
    spec.definition name = .ok e := by
  have hget : spec.content.cddl.get name = .ok e :=
    Cddl.Registry.get_eq_ok_iff.mpr (Or.inl hstored)
  unfold definition
  rw [hget]
  rfl

/-- The definition under the name of a kind of headers: there always is one, it is the fresh
one of the last kind with that name, and that is the kind itself if no other kind has its
name. -/
theorem definition_of_kind [JsonSchema.Engine] (h : ofJson s root = .ok spec) (kind : HeaderKind) :
    ∃ last e, spec.settings.StoredLast kind last ∧
      spec.definition (spec.settings.definitionName kind) = .ok e ∧
      spec.synthesize last none = .ok e ∧
      ((∀ k, spec.settings.definitionName k = spec.settings.definitionName kind → k = kind) →
        spec.synthesize kind none = .ok e) := by
  obtain ⟨d, hread, hcoherent, hsettings, hcontent, -⟩ := exists_of_ofJson_ok h
  obtain ⟨last, hlast, hstored⟩ :=
    Draft.get?_synthesized_storedLast (s := s) (Draft.synthesized_of_read hread) kind
  obtain ⟨e, he, -⟩ := hcoherent.exists_synthesize_none (Draft.labelled_of_read hread)
    (s.definitionName last) last
  have hsynthesize : spec.synthesize last none = .ok e := by
    rw [synthesize_none, hsettings, hcontent, Draft.synthesize_primed, he]
    rfl
  rw [he, ← hcontent] at hstored
  rw [hsettings]
  refine ⟨last, e, hlast, definition_of_stored hstored, hsynthesize, ?_⟩
  intro halone
  rw [← halone last hlast.named]
  exact hsynthesize

/-- With a name of its own for each kind the stored definition of the metadata is the
fresh one. -/
theorem letters_ownNames : ∃ spec, ofJson .default letters = .ok spec ∧
    ∃ e, spec.definition "Signed_Document_Metadata_Headers" = .ok e ∧
      spec.synthesize .metadata none = .ok e ∧ e.rule.requires = ["text"] := by
  have hload : ofJson .default letters = .ok _ := rfl
  obtain ⟨-, e, -, hdefinition, -, hfresh⟩ := definition_of_kind hload .metadata
  have hsynthesize := hfresh (by
    intro k hk
    cases k with
    | document => exact absurd hk (by decide)
    | signature => exact absurd hk (by decide)
    | metadata => rfl)
  refine ⟨_, hload, e, hdefinition, hsynthesize, ?_⟩
  cases hsynthesize
  rfl

/-- One name for the headers of documents and for the metadata. -/
def sharedName : Settings :=
  { Settings.default with documentDefinition := "Signed_Document_Metadata_Headers" }

/-- Under a shared name the definition of the metadata is found, not that of the headers of
documents. -/
theorem letters_sharedName : ∃ spec, ofJson sharedName letters = .ok spec ∧
    ∃ stored fresh,
      spec.definition (spec.settings.definitionName .document) = .ok stored ∧
      spec.synthesize .document none = .ok fresh ∧
      stored.rule.requires = ["text"] ∧ fresh.rule.requires = [] ∧ stored ≠ fresh := by
  refine ⟨_, rfl, _, _, rfl, rfl, rfl, rfl, ?_⟩
  intro hsame
  have hrequires : ["text"] = [] := congrArg (fun e => e.rule.requires) hsame
  cases hrequires

end Specification

end SignedDocs
