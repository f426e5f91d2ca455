import SignedDocs.Cddl.Rule
import SignedDocs.Header
import SignedDocs.ValueFormat

/-!
The group that describes a set of headers.

* A header that excludes no other live header is a plain entry, optional unless it
  is required.
* Headers that exclude each other are an optional choice, one for each set of
  partners, after the plain entries.
* Excluded headers are left out everywhere.
* `Group.definition`: the rule of a group; it requires the CDDL types of the
  entries, each once.
-/

namespace SignedDocs.Cddl

/-- Why there is no group for some headers. -/
inductive GroupError where
  | unknownFormat (header format : String)
  | unknownMember (header member : String)
deriving DecidableEq, Repr

def GroupError.message : GroupError → String
  | .unknownFormat h f => "header `" ++ h ++ "` uses format `" ++ f ++ "` which has no CDDL type"
  | .unknownMember h m =>
    "exclusive group member `" ++ m ++ "` of `" ++ h ++ "` is not a header of this set"

/-- The key and the type of a header. -/
structure Entry where
  header : String
  label : String
  type : String
deriving DecidableEq, Repr

/-- A header that may or has to be there, or one of several that may be there. -/
inductive Part where
  | plain (optional : Bool) (entry : Entry)
  | choice (entries : List Entry)
deriving DecidableEq, Repr

def Part.entries : Part → List Entry
  | .plain _ e => [e]
  | .choice es => es

abbrev Group := List Part

namespace Group

/-! ## Synthesis -/

abbrev Header := Scoped HeaderRule

/-- Headers that may be there. -/
def live (headers : List Header) : List Header :=
  headers.filter fun h => !h.record.presence.isExcluded

/-- The header itself and the live headers it excludes, in their order. -/
def circle (live : List Header) (h : Header) : List Header :=
  live.filter fun g => g.name == h.name || h.record.exclusive.contains g.name

/-- No live header is excluded by this one. -/
def isAlone (live : List Header) (h : Header) : Bool := (circle live h).length == 1

def entryOf (formats : Formats) (h : Header) : Except GroupError Entry :=
  match formats.get? h.record.format with
  | some f => .ok ⟨h.name, h.label, f.cddl⟩
  | none => .error (.unknownFormat h.name h.record.format)

/-- All names that a header excludes are headers. -/
def checkMembers (headers : List Header) (h : Header) : Except GroupError Unit :=
  match h.record.exclusive.find? fun m => !headers.any (·.name == m) with
  | some m => .error (.unknownMember h.name m)
  | none => .ok ()

/-- The plain entry of a header, if it is alone. -/
def plainOf (headers : List Header) (formats : Formats) (h : Header) :
    Except GroupError (Option Part) := do
  checkMembers headers h
  if isAlone (live headers) h then
    let e ← entryOf formats h
    pure (some (.plain (!h.record.presence.isRequired) e))
  else pure none

/-- Lists of headers with different names, the first of those with the same ones. -/
def distinctNames (circles : List (List Header)) : List (List Header) :=
  circles.foldl (fun seen c =>
    if seen.any fun d => d.map Scoped.name == c.map Scoped.name then seen else seen ++ [c]) []

/-- Circles of the headers that are not alone. -/
def circles (headers : List Header) : List (List Header) :=
  distinctNames (((live headers).filter fun h => !isAlone (live headers) h).map (circle (live headers)))

/-- The group of some headers. -/
def ofHeaders (headers : List Header) (formats : Formats) : Except GroupError Group := do
  let plain ← (live headers).mapM (plainOf headers formats)
  let choices ← (circles headers).mapM fun c => c.mapM (entryOf formats)
  pure (plain.filterMap id ++ choices.map .choice)

/-! ## Text -/

def entries (g : Group) : List Entry := g.flatMap Part.entries

/-- One name more, unless it is there. -/
def addName (seen : List String) (name : String) : List String :=
  if seen.contains name then seen else seen ++ [name]

/-- CDDL types of the entries, each at its first use. -/
def requires (g : Group) : List String := (g.entries.map Entry.type).foldl addName []

def entryText (e : Entry) : String := e.label ++ " => " ++ e.type

def partText : Part → String
  | .plain optional e => (if optional then "?" else "") ++ entryText e
  | .choice es => "? (\n  " ++ Text.join " //\n  " (es.map entryText) ++ "\n)"

/-- Every line two columns to the right. -/
def indent (text : String) : String :=
  Text.join "\n" ((Text.lines text).map fun line => "  " ++ line)

/-- The group in parentheses, a part on each line. -/
def text (g : Group) : String := "(\n" ++ indent (Text.join "\n" (g.map partText)) ++ "\n)"

/-- The rule of a group; `base` gives description and comment. -/
def definition (g : Group) (name : String) (base : Option Rule) : Definition :=
  ⟨name, g.text, g.requires, base.bind Rule.description, base.bind Rule.comment⟩

end Group

/-- The definition of the group of some headers. -/
def synthesize (name : String) (base : Option Rule) (headers : List (Scoped HeaderRule))
    (formats : Formats) : Except GroupError Definition := do
  let g ← Group.ofHeaders headers formats
  pure (g.definition name base)

end SignedDocs.Cddl
