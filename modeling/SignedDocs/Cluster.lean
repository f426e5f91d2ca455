import SignedDocs.NameSet
import SignedDocs.Record.Codec
import SignedDocs.Text.LowerCase

/-!
Clusters: named groups of documents.

* `Clusters.containing?`: the first cluster with a document.
* `Clusters.matching?`: the first cluster whose documents are the given names, in
  any order and with any repetitions.
-/

namespace SignedDocs

structure Cluster where
  name : String
  docs : List String
deriving DecidableEq, Repr

namespace Cluster

/-- The documents of a cluster, as they are declared under its name. -/
def recordCodec : Codec (List String) :=
  .record "DocCluster" (.required "docs" (.list .text) .nil) (fun (d, _) => d) (fun d => (d, ()))

def contains (c : Cluster) (doc : String) : Bool := c.docs.contains doc

/-- The names are those of the documents, in any order and with any repetitions. -/
def isMadeOf (c : Cluster) (names : List String) : Bool :=
  (NameSet.ofList c.docs).toList == (NameSet.ofList names).toList

/-- The name in lower case, as an identifier. -/
def label (c : Cluster) : String :=
  "cluster_" ++ String.ofList ((Text.lower c.name).toList.map fun ch =>
    if ch = ' ' ∨ ch = '-' then '_' else ch)

end Cluster

/-- Clusters under their names. -/
structure Clusters where
  clusters : Table Cluster

namespace Clusters

def empty : Clusters := ⟨Table.empty⟩

instance : Inhabited Clusters := ⟨empty⟩

/-- Lists of documents as clusters: each is given its name. -/
def ofTable (records : Table (List String)) : Clusters :=
  ⟨records.mapValues fun name docs => ⟨name, docs⟩⟩

/-- The clusters in the order of declaration. -/
def all (cs : Clusters) : List Cluster := cs.clusters.values

def get? (cs : Clusters) (name : String) : Option Cluster := cs.clusters.get? name

def size (cs : Clusters) : Nat := cs.clusters.size

def isEmpty (cs : Clusters) : Bool := cs.clusters.isEmpty

/-- The first cluster with a document. -/
def containing? (cs : Clusters) (doc : String) : Option Cluster := cs.all.find? (·.contains doc)

/-- The first cluster whose documents have these names. -/
def matching? (cs : Clusters) (names : List String) : Option Cluster :=
  cs.all.find? (·.isMadeOf names)

/-- The documents as they were declared. -/
def declared (cs : Clusters) : Table (List String) := cs.clusters.mapValues fun _ c => c.docs

/-! ## Members -/

variable {cs : Clusters}

/-- Documents belong to a cluster. -/
theorem get?_declared_eq_some_iff {name : String} {docs : List String} :
    cs.declared.get? name = some docs ↔ ∃ c, cs.get? name = some c ∧ c.docs = docs := by
  unfold declared
  rw [Table.get?_mapValues, Option.map_eq_some_iff]
  rfl

/-- The listed clusters are those that are found under some name. -/
theorem mem_all {c : Cluster} : c ∈ cs.all ↔ ∃ name, cs.get? name = some c := by
  unfold all Table.values
  rw [List.mem_map]
  constructor
  · rintro ⟨e, he, rfl⟩
    exact ⟨e.1, Table.get?_eq_some_iff.mpr he⟩
  · rintro ⟨name, hg⟩
    exact ⟨(name, c), Table.get?_eq_some_iff.mp hg, rfl⟩

/-- The clusters carry the names under which they are found. -/
def Named (cs : Clusters) : Prop := ∀ name c, cs.get? name = some c → c.name = name

/-- Then the listed clusters are found under their own names. -/
theorem Named.mem_all (hn : cs.Named) {c : Cluster} : c ∈ cs.all ↔ cs.get? c.name = some c := by
  rw [Clusters.mem_all]
  constructor
  · rintro ⟨name, hg⟩
    rw [hn name c hg]
    exact hg
  · exact fun hg => ⟨c.name, hg⟩

theorem named_ofTable (records : Table (List String)) : (ofTable records).Named := by
  intro name c hg
  have hget : (ofTable records).get? name = (records.get? name).map fun docs => ⟨name, docs⟩ :=
    Table.get?_mapValues records _ name
  rw [hget] at hg
  obtain ⟨docs, -, rfl⟩ := Option.map_eq_some_iff.mp hg
  rfl

/-- The documents stay as they are. -/
theorem declared_ofTable (records : Table (List String)) :
    (ofTable records).declared = records := by
  refine Table.ext ?_
  show (records.entries.map _).map _ = records.entries
  rw [List.map_map]
  exact List.map_id' _

end Clusters

end SignedDocs
