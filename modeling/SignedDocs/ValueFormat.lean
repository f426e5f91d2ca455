import SignedDocs.Record.Codec

/-!
Formats of header values: each names the CDDL definition of its values.
-/

namespace SignedDocs

structure ValueFormat where
  cddl : String
  description : String
deriving DecidableEq

namespace ValueFormat

def fields : Fields (String × String × Unit) :=
  .required "cddl" .text <| .required "description" .text .nil

def codec : Codec ValueFormat :=
  .record "Format" fields (fun (c, d, _) => ⟨c, d⟩) (fun f => (f.cddl, f.description, ()))

end ValueFormat

/-- Formats under their names. -/
abbrev Formats := Table ValueFormat

end SignedDocs
