import SignedDocs.Document
import SignedDocs.NameSet

/-!
The graph of references between documents, in both directions.

* `references?`: the documents that a document refers to.
* `referencedBy?`: the documents that refer to a name, which may be no document.
* `edges`: all pairs, grouped by the document that refers.

Both directions are filled in one pass: every document starts with two empty sets,
then its targets are put in place and it joins the sources of each of them.
-/

namespace SignedDocs

/-- The targets of each document, and the sources of each name. -/
structure ReferenceGraph where
  references : Table NameSet
  referencedBy : Table NameSet

namespace ReferenceGraph

/-! ## Construction -/

/-- Names that the references of a document lead to. -/
def targetsOf (referenceFormat : String) (d : Document) : NameSet :=
  .ofList <| (d.metadata.all.filter fun f => f.record.isReference referenceFormat).flatMap
    fun f => f.record.targets

/-- Every document without targets and without sources. -/
def edgeless (docs : Documents) : ReferenceGraph :=
  ⟨docs.mapValues fun _ _ => .empty, docs.mapValues fun _ _ => .empty⟩

/-- A document joins the sources of a target; an unknown target gets its first source. -/
def addSource (doc : String) (sources : Table NameSet) (target : String) : Table NameSet :=
  sources.insert target (((sources.get? target).getD .empty).insert doc)

/-- The targets of a document, in both directions. -/
def addTargets (g : ReferenceGraph) (doc : String) (targets : NameSet) : ReferenceGraph :=
  ⟨g.references.insert doc targets, targets.toList.foldl (addSource doc) g.referencedBy⟩

/-- All documents under their keys. The names that they carry give the same graph
(`ofDocuments_eq_foldl_name`). -/
def ofDocuments (docs : Documents) (referenceFormat : String) : ReferenceGraph :=
  docs.entries.foldl (fun g e => g.addTargets e.1 (targetsOf referenceFormat e.2)) (edgeless docs)

/-! ## Questions -/

/-- What a document refers to. -/
def references? (g : ReferenceGraph) (doc : String) : Option NameSet := g.references.get? doc

/-- What refers to a name; nothing is known of a name that is neither a document nor
a target. -/
def referencedBy? (g : ReferenceGraph) (name : String) : Option NameSet := g.referencedBy.get? name

/-- Each key with each name under it. -/
def pairs (t : Table NameSet) : List (String × String) :=
  t.entries.flatMap fun e => e.2.toList.map fun n => (e.1, n)

/-- Pairs of a document and a target. -/
def edges (g : ReferenceGraph) : List (String × String) := pairs g.references

/-- How many names stand under the keys of a table. -/
def totalSize (t : Table NameSet) : Nat := t.values.foldr (fun names n => names.size + n) 0

def edgeCount (g : ReferenceGraph) : Nat := totalSize g.references

end ReferenceGraph

end SignedDocs
