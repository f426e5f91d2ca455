import SignedDocs.Record.Codec

/-!
Who may sign a document and publish new versions of it.
-/

namespace SignedDocs

/-- Roles that may sign. -/
structure Roles where
  user : List String
  admin : List String
deriving DecidableEq, Repr

namespace Roles

def fields : Fields (List String × List String × Unit) :=
  .defaulted "user" (.list .text) [] <| .defaulted "admin" (.list .text) [] .nil

def codec : Codec Roles :=
  .record "Roles" fields (fun (u, a, _) => ⟨u, a⟩) (fun r => (r.user, r.admin, ()))

end Roles

/-- Who may publish new versions. -/
structure UpdateRules where
  author : Bool
  collaborators : Option String
  description : Option String
deriving DecidableEq, Repr

namespace UpdateRules

/-- Nobody is named. -/
def empty : UpdateRules := ⟨false, none, none⟩

def fields : Fields (Bool × Option String × Option String × Unit) :=
  .defaulted "author" .flag false <|
  .defaulted "collaborators" (.optional .text) none <|
  .defaulted "description" (.optional .text) none .nil

def codec : Codec UpdateRules :=
  .record "UpdateRules" fields (fun (a, c, d, _) => ⟨a, c, d⟩)
    (fun u => (u.author, u.collaborators, u.description, ()))

end UpdateRules

structure Signers where
  roles : Roles
  update : UpdateRules
deriving DecidableEq, Repr

namespace Signers

def fields : Fields (Roles × UpdateRules × Unit) :=
  .required "roles" Roles.codec <| .defaulted "update" UpdateRules.codec .empty .nil

def codec : Codec Signers :=
  .record "Signers" fields (fun (r, u, _) => ⟨r, u⟩) (fun s => (s.roles, s.update, ()))

end Signers

end SignedDocs
