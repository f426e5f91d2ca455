import SignedDocs.Proofs.Acceptance
import SignedDocs.Proofs.ReferenceClosure
import SignedDocs.Proofs.Replacement

/-!
Looking for clusters: the first one found is the only one.

* `NameSet.toList_ofList_eq_iff`: two lists have the same set of names exactly if they
  have the same members. Order and repetitions do not count.
* `Clusters.Apart`: no document in two clusters. Under it both scans for a first cluster
  say what they find without saying that it is the first.
* `cluster_lookups_agree`: both questions on an accepted specification.
-/

namespace SignedDocs

/-! ## Sets of names -/

namespace NameSet

/-- An ascending list has only one order. -/
theorem eq_iff_forall_mem {s t : NameSet} : s = t ↔ ∀ n, n ∈ s ↔ n ∈ t := by
  constructor
  · rintro rfl n
    exact Iff.rfl
  · intro h
    apply NameSet.ext
    have hnodup : ∀ u : NameSet, u.toList.Nodup := by
      intro u
      refine u.ascending.imp ?_
      rintro a b hab rfl
      exact String.lt_irrefl a hab
    have hperm : s.toList.Perm t.toList :=
      (List.perm_ext_iff_of_nodup (hnodup s) (hnodup t)).mpr h
    refine hperm.eq_of_pairwise ?_ s.ascending t.ascending
    intro a b _ _ hab hba
    exact absurd (String.lt_trans hab hba) (String.lt_irrefl a)

theorem toList_ofList_eq_iff {names others : List String} :
    (ofList names).toList = (ofList others).toList ↔ ∀ n, n ∈ names ↔ n ∈ others := by
  have hext : (ofList names).toList = (ofList others).toList ↔ ofList names = ofList others :=
    ⟨NameSet.ext, congrArg toList⟩
  rw [hext, eq_iff_forall_mem]
  simp only [mem_ofList]

end NameSet

/-! ## Clusters apart -/

/-- If there is at most one candidate, the first one found is the only one. -/
theorem find?_eq_some_iff_of_unique {α : Type} {p : α → Bool} {xs : List α}
    (h : ∀ a ∈ xs, ∀ b ∈ xs, p a = true → p b = true → a = b) {c : α} :
    xs.find? p = some c ↔ c ∈ xs ∧ p c = true := by
  constructor
  · intro hfind
    exact ⟨List.mem_of_find?_eq_some hfind, List.find?_some hfind⟩
  · rintro ⟨hc, hp⟩
    cases hfind : xs.find? p with
    | none => exact absurd hp (List.find?_eq_none.mp hfind c hc)
    | some first =>
      rw [h first (List.mem_of_find?_eq_some hfind) c hc (List.find?_some hfind) hp]

namespace Cluster

theorem contains_iff {c : Cluster} {doc : String} : c.contains doc = true ↔ doc ∈ c.docs :=
  List.contains_iff_mem

theorem isMadeOf_iff {c : Cluster} {names : List String} :
    c.isMadeOf names = true ↔ ∀ n, n ∈ names ↔ n ∈ c.docs := by
  unfold isMadeOf
  rw [beq_iff_eq, NameSet.toList_ofList_eq_iff]
  exact forall_congr' fun n => Iff.comm

end Cluster

namespace Clusters

variable {cs : Clusters}

/-- No document is in two clusters. One cluster may repeat it. -/
def Apart (cs : Clusters) : Prop :=
  ∀ a ∈ cs.all, ∀ b ∈ cs.all, ∀ doc, doc ∈ a.docs → doc ∈ b.docs → a = b

theorem containing?_eq_some_iff (h : cs.Apart) {doc : String} {c : Cluster} :
    cs.containing? doc = some c ↔ c ∈ cs.all ∧ doc ∈ c.docs := by
  unfold containing?
  rw [find?_eq_some_iff_of_unique, Cluster.contains_iff]
  intro a ha b hb hA hB
  exact h a ha b hb doc (Cluster.contains_iff.mp hA) (Cluster.contains_iff.mp hB)

/-- Clusters of the same documents are one, as soon as there is a document. -/
theorem Apart.eq_of_forall_mem (h : cs.Apart) {names : List String} (hnames : names ≠ [])
    {a b : Cluster} (ha : a ∈ cs.all) (hb : b ∈ cs.all) (hA : ∀ n, n ∈ names ↔ n ∈ a.docs)
    (hB : ∀ n, n ∈ names ↔ n ∈ b.docs) : a = b := by
  obtain ⟨n, hn⟩ := List.exists_mem_of_ne_nil names hnames
  exact h a ha b hb n ((hA n).mp hn) ((hB n).mp hn)

theorem matching?_eq_some_iff (h : cs.Apart) {names : List String} (hnames : names ≠ [])
    {c : Cluster} :
    cs.matching? names = some c ↔ c ∈ cs.all ∧ ∀ n, n ∈ names ↔ n ∈ c.docs := by
  unfold matching?
  rw [find?_eq_some_iff_of_unique, Cluster.isMadeOf_iff]
  intro a ha b hb hA hB
  exact h.eq_of_forall_mem hnames ha hb (Cluster.isMadeOf_iff.mp hA) (Cluster.isMadeOf_iff.mp hB)

/-- The answer depends on the set of the names only, on any clusters. -/
theorem matching?_congr {names others : List String} (h : ∀ n, n ∈ names ↔ n ∈ others) :
    cs.matching? names = cs.matching? others := by
  unfold matching? Cluster.isMadeOf
  rw [NameSet.toList_ofList_eq_iff.mpr h]

end Clusters

/-! ## Accepted specifications -/

theorem Draft.Coherent.clusters_apart [JsonSchema.Engine] {d : Draft} {s : Settings}
    (h : d.Coherent s) : d.clusters.Apart := by
  intro a ha b hb doc hA hB
  obtain ⟨m, hm⟩ := Clusters.mem_all.mp ha
  obtain ⟨n, hn⟩ := Clusters.mem_all.mp hb
  have hname : m = n := h.apart m a.docs n b.docs doc
    (Clusters.get?_declared_eq_some_iff.mpr ⟨a, hm, rfl⟩)
    (Clusters.get?_declared_eq_some_iff.mpr ⟨b, hn, rfl⟩) hA hB
  subst hname
  rw [hm] at hn
  exact Option.some.inj hn

namespace Specification

variable {s : Settings} {root : Json} {spec : Specification}

theorem clusters_apart [JsonSchema.Engine] (h : ofJson s root = .ok spec) :
    spec.content.clusters.Apart := by
  obtain ⟨d, -, hcoherent, -, hcontent, -⟩ := exists_of_ofJson_ok h
  rw [hcontent, Draft.clusters_primed]
  exact hcoherent.clusters_apart

/-- On an accepted specification a cluster is found for a document exactly if the document is
in it, and for some names exactly if they are its documents, whatever their order and
repetitions; so at most one cluster is a candidate, the set of names decides, and the
cluster found for names is the one found for each of them. -/
theorem cluster_lookups_agree [JsonSchema.Engine] (h : ofJson s root = .ok spec) :
    (∀ doc c, spec.content.clusters.containing? doc = some c ↔
      c ∈ spec.content.clusters.all ∧ doc ∈ c.docs) ∧
    ∀ names, names ≠ [] →
      (∀ c, spec.content.clusters.matching? names = some c ↔
        c ∈ spec.content.clusters.all ∧ ∀ n, n ∈ names ↔ n ∈ c.docs) ∧
      (∀ others, (∀ n, n ∈ names ↔ n ∈ others) →
        spec.content.clusters.matching? others = spec.content.clusters.matching? names) ∧
      (∀ a ∈ spec.content.clusters.all, ∀ b ∈ spec.content.clusters.all,
        (∀ n, n ∈ names ↔ n ∈ a.docs) → (∀ n, n ∈ names ↔ n ∈ b.docs) → a = b) ∧
      ∀ c, spec.content.clusters.matching? names = some c →
        ∀ n ∈ names, spec.content.clusters.containing? n = some c := by
  have hapart := clusters_apart h
  refine ⟨fun doc c => Clusters.containing?_eq_some_iff hapart, ?_⟩
  intro names hnames
  have hmatching : ∀ c, spec.content.clusters.matching? names = some c ↔
      c ∈ spec.content.clusters.all ∧ ∀ n, n ∈ names ↔ n ∈ c.docs :=
    fun c => Clusters.matching?_eq_some_iff hapart hnames
  refine ⟨hmatching, ?_, ?_, ?_⟩
  · intro others hsame
    exact (Clusters.matching?_congr hsame).symm
  · intro a ha b hb hA hB
    exact hapart.eq_of_forall_mem hnames ha hb hA hB
  · intro c hc n hn
    obtain ⟨hmem, hdocs⟩ := (hmatching c).mp hc
    exact (Clusters.containing?_eq_some_iff hapart).mpr ⟨hmem, (hdocs n).mp hn⟩

/-- Replies and letters in one cluster, replies named twice. -/
def clusteredReplies : Json :=
  replies.replace ["docClusters"] (.object [("correspondence", .object [("docs",
    .array [.string "reply", .string "letter", .string "reply"])])])

/-- Letter, reply, letter: the cluster is found for all three together and for each of them. -/
theorem clusteredReplies_looked_up : ∃ spec, ofJson .default clusteredReplies = .ok spec ∧
    ["letter", "reply", "letter"] ≠ [] ∧
    spec.content.clusters.matching? ["letter", "reply", "letter"] =
      some ⟨"correspondence", ["reply", "letter", "reply"]⟩ ∧
    spec.content.clusters.containing? "letter" =
      some ⟨"correspondence", ["reply", "letter", "reply"]⟩ := by
  have hload : ofJson .default clusteredReplies = .ok _ := rfl
  obtain ⟨hcontaining, hmatching⟩ := cluster_lookups_agree hload
  have hnames : ["letter", "reply", "letter"] ≠ [] := by decide
  obtain ⟨hmade, -, -, hmembers⟩ := hmatching ["letter", "reply", "letter"] hnames
  have hfound := (hmade ⟨"correspondence", ["reply", "letter", "reply"]⟩).mpr
    ⟨List.mem_singleton.mpr rfl, by
      intro n
      simp only [List.mem_cons, List.not_mem_nil, or_false]
      tauto⟩
  exact ⟨_, hload, hnames, hfound, hmembers _ hfound "letter" (by decide)⟩

end Specification

end SignedDocs
