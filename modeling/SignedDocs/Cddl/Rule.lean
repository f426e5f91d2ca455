import SignedDocs.Record.Codec

/-!
CDDL rules: a fragment and the names of the definitions it depends on.
-/

namespace SignedDocs.Cddl

/-- A rule as it is declared under a name. -/
structure Rule where
  body : String
  requires : List String
  description : Option String
  comment : Option String
deriving DecidableEq, Repr

namespace Rule

def fields : Fields (String × List String × Option String × Option String × Unit) :=
  .required "def" .text <|
  .required "requires" (.list .text) <|
  .defaulted "description" (.optional .text) none <|
  .defaulted "comment" (.optional .text) none .nil

def codec : Codec Rule :=
  .record "CddlDefinition" fields (fun (b, r, d, c, _) => ⟨b, r, d, c⟩)
    (fun r => (r.body, r.requires, r.description, r.comment, ()))

end Rule

/-- A rule with its name. -/
structure Definition where
  name : String
  rule : Rule
deriving DecidableEq, Repr

end SignedDocs.Cddl
