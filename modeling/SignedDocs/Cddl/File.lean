import SignedDocs.Cddl.Registry

/-!
CDDL files: a description, then the rules of a definition and of all it requires.

`comment`: every line of a text behind a semicolon.
-/

namespace SignedDocs.Cddl

/-- A line as a comment. -/
def commentLine (line : String) : String := Text.trimEnd ("; " ++ line)

/-- A text as comment lines. -/
def comment (text : String) : String :=
  Text.join "\n" ((Text.lines (Text.trim text)).map commentLine)

/-- A text that is not blank, without the blanks at its ends. -/
def visible? (text : Option String) : Option String :=
  (text.map Text.trim).filter fun t => !t.isEmpty

/-- A rule with its comment above it. -/
def renderRule (d : Definition) : String :=
  let rule := d.name ++ " = " ++ Text.trim d.rule.body
  match visible? d.rule.comment with
  | some c => comment c ++ "\n" ++ rule
  | none => rule

/-- The text of definitions; the first one describes them, otherwise `root`. -/
def renderFile (root : String) (order : List Definition) : String :=
  let description := (visible? (order.head?.bind fun d => d.rule.description)).getD root
  comment description ++ "\n\n\n" ++ Text.join "\n\n" (order.map renderRule) ++ "\n"

/-- The complete file of a definition. -/
def Registry.file (r : Registry) (root : String) : Except LookupError String :=
  (r.resolve root).map (renderFile root)

end SignedDocs.Cddl
