import SignedDocs.CommandLine.Run
import SignedDocs.Proofs.ClusterLookup
import SignedDocs.Proofs.Replacement

/-!
The blocks that are printed for documents: what they say forwards and backwards.

* `Block`: what a block says, before it is put into words. `referenceBlock_eq`: the text is
  that of the block.
* `FieldLine.names`: a line with a cluster stands for the same names as one with a list.
* `mem_sources_iff`: a source is a document with a line that leads here, or with an excluded
  reference. Excluded references have no line, but they count in the graph.
-/

namespace SignedDocs.CommandLine

/-! ## Blocks -/

/-- What is said of a reference: the names it leads to, or a cluster in their place. -/
structure FieldLine where
  field : String
  targets : List String
  cluster : Option Cluster

namespace FieldLine

/-- The names that the line stands for. -/
def names (l : FieldLine) : List String :=
  match l.cluster with
  | some c => c.docs
  | none => l.targets

def text (l : FieldLine) : String :=
  line ("   " ++ l.field ++ " → " ++ match l.cluster with
    | some c => "[" ++ c.name ++ "]"
    | none => Text.join ", " l.targets)

end FieldLine

/-- What is said of a document. -/
structure Block where
  name : String
  cluster : Option Cluster
  lines : List FieldLine
  sources : NameSet

def Block.text (b : Block) : String :=
  line ("📄 " ++ b.name) ++
  (match b.cluster with
    | some c => line ("   cluster: " ++ c.name)
    | none => "") ++
  String.join (b.lines.map FieldLine.text) ++
  line ("   referenced by: " ++ namesOrNone b.sources) ++
  line ""

def lineOf (spec : Specification) (f : Scoped MetadataField) : FieldLine :=
  ⟨f.name, f.record.targets, spec.content.clusters.matching? f.record.targets⟩

def blockOf (spec : Specification) (name : String) : Except Failure Block := do
  let d ← spec.document name
  let sources ← spec.referencing name
  pure ⟨name, spec.content.clusters.containing? name, (shownReferences spec d).map (lineOf spec),
    sources⟩

variable {spec : Specification}

/-- What is printed of a document is the text of its block. -/
theorem referenceBlock_eq (name : String) :
    referenceBlock spec name = (blockOf spec name).map Block.text := by
  have hline : ∀ f, line ("   " ++ f.name ++ " → " ++ targetText spec f) = (lineOf spec f).text := by
    intro f
    unfold targetText FieldLine.text lineOf
    cases spec.content.clusters.matching? f.record.targets <;> rfl
  unfold referenceBlock blockOf
  cases spec.document name with
  | error e => rfl
  | ok d =>
    cases spec.referencing name with
    | error e => rfl
    | ok sources =>
      simp only [hline]
      show Except.ok _ = Except.ok (Block.text _)
      unfold Block.text
      rw [List.map_map]
      rfl

theorem blockOf_eq_ok_iff {name : String} {b : Block} :
    blockOf spec name = .ok b ↔ ∃ d sources, spec.content.docs.get? name = some d ∧
      spec.referencing name = .ok sources ∧
      ⟨name, spec.content.clusters.containing? name,
        (shownReferences spec d).map (lineOf spec), sources⟩ = b := by
  simp only [← Specification.document_eq_ok_iff]
  unfold blockOf
  cases spec.document name with
  | error e => simp [bind, Except.bind]
  | ok d => cases spec.referencing name <;> simp [bind, Except.bind, pure, Except.pure]

theorem name_of_blockOf {name : String} {b : Block} (h : blockOf spec name = .ok b) :
    b.name = name := by
  obtain ⟨d, sources, -, -, rfl⟩ := blockOf_eq_ok_iff.mp h
  rfl

/-! ## Forwards -/

/-- It does not matter whether a list or its cluster is shown. -/
theorem mem_names_lineOf {f : Scoped MetadataField} {n : String} :
    n ∈ (lineOf spec f).names ↔ n ∈ f.record.targets := by
  unfold FieldLine.names lineOf
  cases hmatch : spec.content.clusters.matching? f.record.targets with
  | none => rfl
  | some c =>
    have hmade : c.isMadeOf f.record.targets = true :=
      List.find?_some (p := fun c : Cluster => c.isMadeOf f.record.targets) hmatch
    exact (Cluster.isMadeOf_iff.mp hmade n).symm

theorem mem_shownReferences {d : Document} {f : Scoped MetadataField} :
    f ∈ shownReferences spec d ↔ f ∈ d.metadata.all ∧ f.record.presence ≠ .excluded ∧
      f.record.format = spec.settings.referenceFormat := by
  unfold shownReferences MetadataField.isReference
  rw [List.mem_filter, Bool.and_eq_true, Bool.not_eq_true', beq_iff_eq,
    ← Bool.not_eq_true, Draft.isExcluded_iff]

/-- A line leads to a name exactly if a reference that is not excluded does. -/
theorem exists_line_iff {doc : String} {d : Document} {a : Block}
    (hdoc : spec.content.docs.get? doc = some d) (ha : blockOf spec doc = .ok a) {n : String} :
    (∃ l ∈ a.lines, n ∈ l.names) ↔ ∃ field f, d.metadata.declared.get? field = some f ∧
      f.presence ≠ .excluded ∧ f.format = spec.settings.referenceFormat ∧ n ∈ f.targets := by
  obtain ⟨d', _, hdoc', -, rfl⟩ := blockOf_eq_ok_iff.mp ha
  rw [hdoc] at hdoc'
  cases hdoc'
  rw [← FieldSet.exists_mem_all (P := fun f : MetadataField => f.presence ≠ .excluded ∧
    f.format = spec.settings.referenceFormat ∧ n ∈ f.targets)]
  constructor
  · rintro ⟨l, hl, hn⟩
    obtain ⟨f, hf, rfl⟩ := List.mem_map.mp hl
    obtain ⟨hall, hlive, hformat⟩ := mem_shownReferences.mp hf
    exact ⟨f, hall, hlive, hformat, mem_names_lineOf.mp hn⟩
  · rintro ⟨f, hall, hlive, hformat, hn⟩
    have hshown := mem_shownReferences.mpr ⟨hall, hlive, hformat⟩
    exact ⟨_, List.mem_map_of_mem hshown, mem_names_lineOf.mpr hn⟩

/-! ## Backwards -/

/-- A document has an excluded field that would be a reference to a name. -/
def HidesReference (spec : Specification) (doc target : String) : Prop :=
  ∃ d field f, spec.content.docs.get? doc = some d ∧ d.metadata.declared.get? field = some f ∧
    f.presence = .excluded ∧ f.format = spec.settings.referenceFormat ∧ target ∈ f.targets

variable {s : Settings} {root : Json}

/-- The document has a line that leads to the other one, or an excluded reference to it. -/
theorem mem_sources_iff [JsonSchema.Engine] (h : Specification.ofJson s root = .ok spec)
    {doc target : String} {a b : Block} (ha : blockOf spec doc = .ok a)
    (hb : blockOf spec target = .ok b) :
    doc ∈ b.sources ↔ (∃ l ∈ a.lines, target ∈ l.names) ∨ HidesReference spec doc target := by
  obtain ⟨d, _, hget, -, -⟩ := blockOf_eq_ok_iff.mp ha
  obtain ⟨_, sources, -, hsources, rfl⟩ := blockOf_eq_ok_iff.mp hb
  rw [Specification.mem_referencing_iff h hsources hget, exists_line_iff hget ha]
  constructor
  · rintro ⟨field, f, hf, hformat, htarget⟩
    by_cases hexcluded : f.presence = .excluded
    · exact Or.inr ⟨d, field, f, hget, hf, hexcluded, hformat, htarget⟩
    · exact Or.inl ⟨field, f, hf, hexcluded, hformat, htarget⟩
  · rintro (⟨field, f, hf, -, hformat, htarget⟩ | ⟨d', field, f, hget', hf, -, hformat, htarget⟩)
    · exact ⟨field, f, hf, hformat, htarget⟩
    · rw [hget] at hget'
      cases hget'
      exact ⟨field, f, hf, hformat, htarget⟩

/-! ## Printing -/

theorem exists_blockOf [JsonSchema.Engine] (h : Specification.ofJson s root = .ok spec)
    (name : String) (hname : name ∈ spec.documentNames) : ∃ b, blockOf spec name = .ok b := by
  obtain ⟨d, hd⟩ := Table.mem_keys_iff.mp hname
  obtain ⟨sources, hsources, -⟩ := Specification.exists_neighbours h .backwards hname
  exact ⟨_, blockOf_eq_ok_iff.mpr ⟨d, sources, hd, hsources, rfl⟩⟩

theorem blockOf_of_mem {names : List String} {blocks : List Block}
    (h : names.mapM (blockOf spec) = .ok blocks) {b : Block} (hb : b ∈ blocks) :
    blockOf spec b.name = .ok b := by
  obtain ⟨name, -, hname⟩ := exists_of_mem_mapM h hb
  rw [name_of_blockOf hname]
  exact hname

theorem mapM_referenceBlock {names : List String} {blocks : List Block}
    (h : names.mapM (blockOf spec) = .ok blocks) :
    names.mapM (referenceBlock spec) = .ok (blocks.map Block.text) := by
  induction names generalizing blocks with
  | nil =>
    cases h
    rfl
  | cons name names ih =>
    obtain ⟨b, rest, hb, hrest, rfl⟩ := mapM_cons_ok_iff.mp h
    have hfirst : referenceBlock spec name = .ok b.text := by
      rw [referenceBlock_eq, hb]
      rfl
    exact mapM_cons_ok_iff.mpr ⟨b.text, rest.map Block.text, hfirst, ih hrest, rfl⟩

theorem referencesText_none {blocks : List Block}
    (h : spec.documentNames.mapM (blockOf spec) = .ok blocks) :
    referencesText spec none = .ok (String.join (blocks.map Block.text)) := by
  show (do pure (String.join (← spec.documentNames.mapM (referenceBlock spec)))) = _
  rw [mapM_referenceBlock h]
  rfl

theorem referencesText_some {name : String} {b : Block} (h : blockOf spec name = .ok b) :
    referencesText spec (some name) = .ok b.text := by
  obtain ⟨d, -, hget, -, -⟩ := blockOf_eq_ok_iff.mp h
  have hone : [name].mapM (referenceBlock spec) = .ok [b.text] :=
    mapM_referenceBlock (mapM_cons_ok_iff.mpr ⟨b, [], h, rfl, rfl⟩)
  unfold referencesText
  simp only [Specification.document_eq_ok_iff.mpr hget]
  show (do pure (String.join (← [name].mapM (referenceBlock spec)))) = _
  rw [hone]
  show Except.ok (String.join [b.text]) = _
  simp

/-- Every document of an accepted specification has a block, and these are printed, all or
one. A document is among the sources in the block of another one exactly if a line in its
own block leads there or it has an excluded reference there. -/
theorem printed_references_agree [JsonSchema.Engine] (h : Specification.ofJson s root = .ok spec)
    (path : String) : ∃ blocks, spec.documentNames.mapM (blockOf spec) = .ok blocks ∧
      blocks.map Block.name = spec.documentNames ∧
      perform spec (.refs path none) =
        .finished (succeeded (String.join (blocks.map Block.text))) ∧
      (∀ b ∈ blocks, perform spec (.refs path (some b.name)) = .finished (succeeded b.text)) ∧
      ∀ a ∈ blocks, ∀ b ∈ blocks, a.name ∈ b.sources ↔
        (∃ l ∈ a.lines, b.name ∈ l.names) ∨ HidesReference spec a.name b.name := by
  obtain ⟨blocks, hblocks⟩ := mapM_ok_iff.mpr (exists_blockOf h)
  have hblock : ∀ b ∈ blocks, blockOf spec b.name = .ok b := fun _ => blockOf_of_mem hblocks
  refine ⟨blocks, hblocks, ?_, ?_, ?_, ?_⟩
  · rw [map_eq_of_mapM_ok (p := id) (fun _ _ => name_of_blockOf) hblocks, List.map_id]
  · show Step.finished (printed (referencesText spec none)) = _
    rw [referencesText_none hblocks]
    rfl
  · intro b hb
    show Step.finished (printed (referencesText spec (some b.name))) = _
    rw [referencesText_some (hblock b hb)]
    rfl
  · intro a ha b hb
    exact mem_sources_iff h (hblock a ha) (hblock b hb)

/-- The line of replies leads to letters, whose block has replies among the sources. -/
theorem replies_printed : ∃ spec, Specification.ofJson .default Specification.replies = .ok spec ∧
    ∃ blocks, spec.documentNames.mapM (blockOf spec) = .ok blocks ∧
      perform spec (.refs "spec.json" none) =
        .finished (succeeded (String.join (blocks.map Block.text))) ∧
      ∃ reply ∈ blocks, ∃ letter ∈ blocks, reply.name = "reply" ∧ letter.name = "letter" ∧
        (∃ l ∈ reply.lines, "letter" ∈ l.names) ∧ "reply" ∈ letter.sources := by
  have hload : Specification.ofJson .default Specification.replies = .ok _ := rfl
  obtain ⟨blocks, hblocks, hlisted, hall, -, hagree⟩ := printed_references_agree hload "spec.json"
  have hnames : "reply" ∈ blocks.map Block.name ∧ "letter" ∈ blocks.map Block.name := by
    rw [hlisted]
    decide
  obtain ⟨reply, hreply, hreplyName⟩ := List.mem_map.mp hnames.1
  obtain ⟨letter, hletter, hletterName⟩ := List.mem_map.mp hnames.2
  have hblock := blockOf_of_mem hblocks hreply
  have hiff := hagree reply hreply letter hletter
  rw [hreplyName] at hblock hiff
  rw [hletterName] at hiff
  have hline : ∃ l ∈ reply.lines, "letter" ∈ l.names :=
    (exists_line_iff rfl hblock).mpr ⟨"to", _, rfl, by decide, rfl, by decide⟩
  exact ⟨_, hload, blocks, hblocks, hall, reply, hreply, letter, hletter, hreplyName, hletterName,
    hline, hiff.mpr (Or.inl hline)⟩

/-- Replies that must not say what they reply to. -/
def retractedReplies : Json :=
  Specification.replies.replace ["docs", "reply", "metadata", "to", "required"]
    (.string "excluded")

/-- The block of the reply has no line, and yet the letter lists the reply. -/
theorem retractedReplies_listed : ∃ spec reply letter,
    Specification.ofJson .default retractedReplies = .ok spec ∧
      perform spec (.refs "spec.json" (some "reply")) = .finished (succeeded reply.text) ∧
      perform spec (.refs "spec.json" (some "letter")) = .finished (succeeded letter.text) ∧
      blockOf spec "reply" = .ok reply ∧ blockOf spec "letter" = .ok letter ∧
      ¬("reply" ∈ letter.sources ↔ ∃ l ∈ reply.lines, "letter" ∈ l.names) := by
  have hload : Specification.ofJson .default retractedReplies = .ok _ := rfl
  obtain ⟨reply, hreply⟩ := exists_blockOf hload "reply" (by decide)
  obtain ⟨letter, hletter⟩ := exists_blockOf hload "letter" (by decide)
  refine ⟨_, reply, letter, hload, ?_, ?_, hreply, hletter, ?_⟩
  · exact congrArg (fun x => Step.finished (printed x)) (referencesText_some hreply)
  · exact congrArg (fun x => Step.finished (printed x)) (referencesText_some hletter)
  · intro hiff
    have hhidden := (mem_sources_iff hload hreply hletter).mpr
      (Or.inr ⟨_, "to", _, rfl, rfl, rfl, rfl, by decide⟩)
    obtain ⟨field, f, hget, hlive, -, -⟩ := (exists_line_iff rfl hreply).mp (hiff.mp hhidden)
    have hone := List.mem_singleton.mp (Table.get?_eq_some_iff.mp hget)
    cases hone
    exact hlive rfl

end SignedDocs.CommandLine
