import SignedDocs.Cddl.Registry
import SignedDocs.Json.Parser
import SignedDocs.Report
import SignedDocs.Settings

/-!
Why a specification cannot be loaded, or a question about it has no answer.
-/

namespace SignedDocs

inductive Failure where
  | noFile (path : String)
  | unreadableFile (reason : String)
  | malformed (text : String) (fault : Json.Malformed)
  | badSettings (text : String) (fault : Settings.Fault)
  | rejected (report : Report)
  | noDocument (name : String)
  | noField (name : String) (doc : Option String)
  | noDefinition (name : String)
  | synthesis (reason : Cddl.GroupError)

namespace Failure

def ofLookup : Cddl.LookupError → Failure
  | .notFound name => .noDefinition name
  | .failed reason => .synthesis reason

/-- What stands behind a failure, in its own words. -/
def reason? : Failure → Option String
  | .unreadableFile reason => some reason
  | .malformed text fault => some (fault.message text)
  | .badSettings text fault => some (fault.message text)
  | .synthesis reason => some reason.message
  | _ => none

def message : Failure → String
  | .noFile path => "Specification file not found: " ++ path
  | .unreadableFile reason => "IO error: " ++ reason
  | .malformed text fault => "JSON parsing error: " ++ fault.message text
  | .badSettings text fault => "TOML parsing error: " ++ fault.message text
  | .rejected report => report.rejection
  | .noDocument name => "Document not found: " ++ name
  | .noField name doc =>
    "Metadata field `" ++ name ++ "` not found" ++ match doc with
      | some d => " in document `" ++ d ++ "`"
      | none => ""
  | .noDefinition name => "CDDL definition not found: " ++ name
  | .synthesis reason => "CDDL synthesis failed: " ++ reason.message

end Failure

end SignedDocs
