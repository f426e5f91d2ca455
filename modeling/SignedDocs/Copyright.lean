import SignedDocs.Revision

/-!
Copyright of the specification, and the authors and changes of a document.
-/

namespace SignedDocs

structure Copyright where
  publisher : String
  copyright : String
  license : String
  created : Date
  versions : List Revision
deriving DecidableEq

namespace Copyright

/-- No texts, no changes, the first day of 1970. -/
def empty : Copyright := ⟨"", "", "", .epoch, []⟩

def fields : Fields (String × String × String × Date × List Revision × Unit) :=
  .required "publisher" .text <|
  .required "copyright" .text <|
  .required "license" .text <|
  .required "created" .date <|
  .required "versions" (.list Revision.codec) .nil

def codec : Codec Copyright :=
  .record "Copyright" fields (fun (p, c, l, d, v, _) => ⟨p, c, l, d, v⟩)
    (fun c => (c.publisher, c.copyright, c.license, c.created, c.versions, ()))

end Copyright

/-! ## Attribution -/

/-- Who wrote something, under which copyright, with which changes. -/
structure Attribution where
  authors : Authors
  copyright : Copyright
  versions : List Revision
  lastModified : Option Date

namespace Attribution

/-- The later of two days, if there are any. -/
def later : Option Date → Option Date → Option Date
  | some a, some b => some (a.max b)
  | some a, none => some a
  | none, b => b

/-- Of the whole specification. -/
def ofSpecification (authors : Authors) (copyright : Copyright) : Attribution :=
  ⟨Table.empty.extend authors.entries, copyright, copyright.versions,
    Revision.latest? copyright.versions⟩

/-- Of a document: its authors first, but an author of the specification keeps the
address given there. -/
def ofDocument (authors : Authors) (copyright : Copyright) (docAuthors : Authors)
    (docVersions : List Revision) : Attribution :=
  ⟨(Table.empty.extend docAuthors.entries).extend authors.entries, copyright, docVersions,
    later (Revision.latest? copyright.versions) (Revision.latest? docVersions)⟩

end Attribution

end SignedDocs
