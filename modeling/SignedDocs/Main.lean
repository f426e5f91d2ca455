import SignedDocs.CommandLine.Run
import SignedDocs.JsonSchema.MetaSchema

/-!
The command line program: reads the files of a request, prints what it gives, and
writes the file it asks for.
-/

namespace SignedDocs

/-- What is under a path. -/
def readFile (path : String) : IO CommandLine.FileContent := do
  match ← (IO.FS.readFile path).toBaseIO with
  | .ok content => pure (.text content)
  | .error (.noFileOrDirectory ..) => pure .missing
  | .error e => pure (.unreadable (toString e))

def report (o : CommandLine.Outcome) : IO UInt32 := do
  IO.print o.stdout
  IO.eprint o.stderr
  pure o.exit.toUInt32

end SignedDocs

def main (args : List String) : IO UInt32 := do
  let contents ← (SignedDocs.CommandLine.inputs args).mapM fun path => do
    pure (path, ← SignedDocs.readFile path)
  match SignedDocs.CommandLine.start (fun path => (contents.lookup path).getD .missing) args with
  | .finished o => SignedDocs.report o
  | .write path content next =>
    match ← (IO.FS.writeFile path content).toBaseIO with
    | .ok _ => SignedDocs.report (next none)
    | .error e => SignedDocs.report (next (some (toString e)))
