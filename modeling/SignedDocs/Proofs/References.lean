import Mathlib.Data.List.Nodup
import Mathlib.Data.Prod.Basic
import SignedDocs.ReferenceGraph

/-!
References in both directions: the two tables of a graph hold the same pairs.

* `Table.Lists`: a name stands under a key.
* `Symmetric.addTargets`: one document keeps both directions in step, as long as it has
  no targets yet; `symmetric_foldl_addTargets`: so do all documents, each once.
* `ofDocuments_graph`: what a graph says of the documents it is built from.
-/

namespace SignedDocs

/-! ## Sets under keys -/

/-- A name is in the set of a key. -/
def Table.Lists (t : Table NameSet) (key name : String) : Prop :=
  ∃ names, t.get? key = some names ∧ name ∈ names

theorem Table.lists_insert {t : Table NameSet} {key : String} {names : NameSet} {k n : String} :
    (t.insert key names).Lists k n ↔ if k = key then n ∈ names else t.Lists k n := by
  unfold Table.Lists
  rw [Table.get?_insert]
  by_cases h : k = key <;> simp [h]

namespace ReferenceGraph

theorem mem_pairs {t : Table NameSet} {p : String × String} : p ∈ pairs t ↔ t.Lists p.1 p.2 := by
  unfold pairs Table.Lists
  simp only [List.mem_flatMap, List.mem_map, Table.get?_eq_some_iff]
  constructor
  · rintro ⟨e, he, n, hn, rfl⟩
    exact ⟨e.2, he, hn⟩
  · rintro ⟨names, he, hn⟩
    exact ⟨(p.1, names), he, p.2, hn, rfl⟩

/-- Keys are different, and so are the names under one key. -/
theorem nodup_pairs (t : Table NameSet) : (pairs t).Nodup := by
  unfold pairs
  rw [List.nodup_flatMap]
  constructor
  · intro e _
    have hnames : e.2.toList.Nodup := e.2.ascending.imp String.ne_of_lt
    exact hnames.map fun a b hab => congrArg Prod.snd hab
  · refine (List.pairwise_map.mp t.keys_nodup).imp ?_
    intro e f hef
    refine List.disjoint_left.mpr ?_
    intro p hp hp'
    obtain ⟨a, -, rfl⟩ := List.mem_map.mp hp
    obtain ⟨b, -, hb⟩ := List.mem_map.mp hp'
    exact hef (congrArg Prod.fst hb).symm

theorem length_pairs (t : Table NameSet) : (pairs t).length = totalSize t := by
  unfold pairs totalSize Table.values
  induction t.entries with
  | nil => rfl
  | cons e es ih =>
    rw [List.flatMap_cons, List.length_append, List.length_map, ih]
    rfl

/-- Tables that hold the same pairs, the other way round, hold equally many. -/
theorem totalSize_eq {s t : Table NameSet} (h : ∀ a b, s.Lists a b ↔ t.Lists b a) :
    totalSize s = totalSize t := by
  have hswap : ((pairs t).map Prod.swap).Nodup := (nodup_pairs t).map Prod.swap_injective
  have hperm : (pairs s).Perm ((pairs t).map Prod.swap) := by
    refine (List.perm_ext_iff_of_nodup (nodup_pairs s) hswap).mpr ?_
    rintro ⟨a, b⟩
    rw [mem_pairs, h a b, List.mem_map_of_involutive Prod.swap_swap, mem_pairs]
    rfl
  rw [← length_pairs, ← length_pairs, hperm.length_eq, List.length_map]

/-! ## Targets and sources -/

theorem mem_targetsOf {referenceFormat : String} {d : Document} {t : String} :
    t ∈ targetsOf referenceFormat d ↔ ∃ field f, d.metadata.declared.get? field = some f ∧
      f.format = referenceFormat ∧ t ∈ f.targets := by
  unfold targetsOf MetadataField.isReference
  simp only [NameSet.mem_ofList, List.mem_flatMap, List.mem_filter, beq_iff_eq, and_assoc]
  exact FieldSet.exists_mem_all
    (P := fun f : MetadataField => f.format = referenceFormat ∧ t ∈ f.targets)

theorem lists_addSource {doc target : String} {sources : Table NameSet} {k n : String} :
    (addSource doc sources target).Lists k n ↔ sources.Lists k n ∨ k = target ∧ n = doc := by
  unfold addSource
  rw [Table.lists_insert]
  by_cases h : k = target
  · subst h
    unfold Table.Lists
    cases sources.get? k with
    | none => simp [NameSet.mem_insert, NameSet.not_mem_empty]
    | some names => simp [NameSet.mem_insert, or_comm]
  · simp [h]

theorem lists_foldl_addSource {doc : String} {targets : List String} {sources : Table NameSet}
    {k n : String} : (targets.foldl (addSource doc) sources).Lists k n ↔
      sources.Lists k n ∨ k ∈ targets ∧ n = doc := by
  induction targets generalizing sources with
  | nil => simp
  | cons target targets ih =>
    rw [List.foldl_cons, ih, lists_addSource, List.mem_cons, or_assoc, or_and_right]

/-! ## One document -/

/-- Both directions hold the same pairs. -/
def Symmetric (g : ReferenceGraph) : Prop := ∀ a b, g.references.Lists a b ↔ g.referencedBy.Lists b a

theorem Symmetric.addTargets {g : ReferenceGraph} (h : g.Symmetric) {doc : String}
    (hfree : ∀ b, ¬g.references.Lists doc b) (targets : NameSet) :
    (g.addTargets doc targets).Symmetric := by
  intro a b
  show (g.references.insert doc targets).Lists a b ↔
    (targets.toList.foldl (addSource doc) g.referencedBy).Lists b a
  rw [Table.lists_insert, lists_foldl_addSource, ← h a b]
  by_cases ha : a = doc
  · subst ha
    simp only [if_true, hfree b, false_or, and_true]
    rfl
  · simp [ha]

/-! ## All documents -/

variable {referenceFormat : String}

theorem references_foldl_addTargets {es : List (String × Document)} (hd : (es.map Prod.fst).Nodup)
    (g : ReferenceGraph) (name : String) :
    (es.foldl (fun g e => g.addTargets e.1 (targetsOf referenceFormat e.2)) g).references? name =
      ((es.lookup name).map (targetsOf referenceFormat)).or (g.references? name) := by
  induction es generalizing g with
  | nil => rfl
  | cons e es ih =>
    rw [List.map_cons, List.nodup_cons] at hd
    rw [List.foldl_cons, ih hd.2]
    show _ = ((List.lookup name (e :: es)).map _).or _
    have hstep : (g.addTargets e.1 (targetsOf referenceFormat e.2)).references? name =
        if name = e.1 then some (targetsOf referenceFormat e.2) else g.references? name :=
      Table.get?_insert g.references e.1 _ name
    rw [hstep, List.lookup_cons]
    by_cases hn : name = e.1
    · subst hn
      have hnone : es.lookup e.1 = none := Table.get?_eq_none_iff (t := ⟨es, hd.2⟩).mpr hd.1
      simp [hnone]
    · have hb : (name == e.1) = false := beq_false_of_ne hn
      simp [hn, hb]

/-- A document that is still to come has no targets so far, so that it can be added. -/
theorem symmetric_foldl_addTargets {es : List (String × Document)} (hd : (es.map Prod.fst).Nodup)
    {g : ReferenceGraph} (h : g.Symmetric) (hfree : ∀ e ∈ es, ∀ b, ¬g.references.Lists e.1 b) :
    (es.foldl (fun g e => g.addTargets e.1 (targetsOf referenceFormat e.2)) g).Symmetric := by
  induction es generalizing g with
  | nil => exact h
  | cons e es ih =>
    rw [List.map_cons, List.nodup_cons] at hd
    rw [List.forall_mem_cons] at hfree
    refine ih hd.2 (h.addTargets hfree.1 _) ?_
    intro f hf b
    show ¬(g.references.insert e.1 _).Lists f.1 b
    have hne : f.1 ≠ e.1 := by
      intro he
      exact hd.1 (he ▸ List.mem_map_of_mem hf)
    rw [Table.lists_insert, if_neg hne]
    exact hfree.2 f hf b

theorem not_lists_edgeless {docs : Documents} {k n : String} :
    ¬(docs.mapValues fun _ _ => NameSet.empty).Lists k n := by
  rintro ⟨names, hnames, hn⟩
  rw [Table.get?_mapValues, Option.map_eq_some_iff] at hnames
  obtain ⟨-, -, rfl⟩ := hnames
  exact NameSet.not_mem_empty n hn

theorem symmetric_ofDocuments (docs : Documents) (referenceFormat : String) :
    (ofDocuments docs referenceFormat).Symmetric := by
  have hedgeless : (edgeless docs).Symmetric := fun a b =>
    ⟨fun h => absurd h not_lists_edgeless, fun h => absurd h not_lists_edgeless⟩
  exact symmetric_foldl_addTargets docs.keys_nodup hedgeless fun _ _ _ => not_lists_edgeless

/-- Every document has its own targets, and nothing else has targets. -/
theorem references_ofDocuments (docs : Documents) (referenceFormat name : String) :
    (ofDocuments docs referenceFormat).references? name =
      (docs.get? name).map (targetsOf referenceFormat) := by
  unfold ofDocuments
  rw [references_foldl_addTargets docs.keys_nodup]
  show ((docs.get? name).map _).or ((docs.mapValues fun _ _ => NameSet.empty).get? name) = _
  rw [Table.get?_mapValues]
  cases docs.get? name <;> rfl

/-- A graph has the targets of every document and of nothing else, as its reference fields
list them; both directions agree; each pair is an edge once; and the number of edges
is the number of all targets as well as of all sources. -/
theorem ofDocuments_graph (docs : Documents) (referenceFormat : String) :
    let g := ofDocuments docs referenceFormat
    (∀ name, (∃ targets, g.references? name = some targets) ↔ name ∈ docs.keys) ∧
    (∀ name doc, docs.get? name = some doc → ∃ targets, g.references? name = some targets ∧
      ∀ t, t ∈ targets ↔ ∃ field f, doc.metadata.declared.get? field = some f ∧
        f.format = referenceFormat ∧ t ∈ f.targets) ∧
    (∀ a b, (∃ targets, g.references? a = some targets ∧ b ∈ targets) ↔
      ∃ sources, g.referencedBy? b = some sources ∧ a ∈ sources) ∧
    (g.edges.Nodup ∧ ∀ a b, (a, b) ∈ g.edges ↔
      ∃ targets, g.references? a = some targets ∧ b ∈ targets) ∧
    g.edgeCount = g.edges.length ∧
    g.edgeCount = totalSize g.referencedBy := by
  intro g
  refine ⟨?_, ?_, symmetric_ofDocuments docs referenceFormat, ⟨nodup_pairs _, ?_⟩,
    (length_pairs _).symm, totalSize_eq (symmetric_ofDocuments docs referenceFormat)⟩
  · intro name
    rw [references_ofDocuments, Table.mem_keys_iff]
    cases docs.get? name <;> simp
  · intro name doc hdoc
    refine ⟨targetsOf referenceFormat doc, ?_, fun t => mem_targetsOf⟩
    rw [references_ofDocuments, hdoc]
    rfl
  · intro a b
    exact mem_pairs

end ReferenceGraph

end SignedDocs
