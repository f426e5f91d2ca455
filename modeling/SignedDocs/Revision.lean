import SignedDocs.Record.Codec

/-!
Change logs: what was changed in which version, and when.
-/

namespace SignedDocs

/-- An entry of a change log. -/
structure Revision where
  version : String
  modified : Date
  changes : String
deriving DecidableEq

namespace Revision

def fields : Fields (String × Date × String × Unit) :=
  .required "version" .text <| .required "modified" .date <| .required "changes" .text .nil

def codec : Codec Revision :=
  .record "ChangeLogEntry" fields (fun (v, m, c, _) => ⟨v, m, c⟩)
    (fun r => (r.version, r.modified, r.changes, ()))

/-- The day of the latest change. -/
def latest? (log : List Revision) : Option Date := Date.latest? (log.map modified)

end Revision

/-- Contact addresses under the names of authors. -/
abbrev Authors := Table String

end SignedDocs
