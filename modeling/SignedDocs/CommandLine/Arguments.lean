/-!
Arguments of the command line.

* Options: `--name value`, `--name=value`, `-n value`, `-nvalue`, `-n=value`; flags
  without a value may share a hyphen. A value does not begin with a hyphen, unless
  it is only that or stands after an equals sign or its option's letter.
* `--` ends the options.
* `-v` and `-c` may stand before or after the name of the command; the later place
  counts. Nothing may be given twice at one place.
-/

namespace SignedDocs.CommandLine

inductive Command where
  | validate (path : String) (strict : Bool)
  | cddl (path root : String) (doc output : Option String)
  | refs (path : String) (doc : Option String)
  | metadata (path : String) (doc field : Option String)
deriving DecidableEq, Repr

/-- The file with the specification. -/
def Command.path : Command → String
  | .validate path _ => path
  | .cddl path _ _ _ => path
  | .refs path _ => path
  | .metadata path _ _ => path

structure Invocation where
  verbose : Bool
  config : Option String
  command : Command
deriving DecidableEq, Repr

/-- What is asked for. -/
inductive Request where
  | run (invocation : Invocation)
  | version (program : String)
  | help
deriving DecidableEq, Repr

/-! ## Options -/

/-- An option: its long name, its letter if it has one, whether it takes a value,
and whether the value may not be empty. -/
structure OptionSpec where
  name : String
  letter : Option Char
  takesValue : Bool
  isPath : Bool
deriving DecidableEq, Repr

def verboseOption : OptionSpec := ⟨"verbose", some 'v', false, false⟩

def configOption : OptionSpec := ⟨"config", some 'c', true, true⟩

def helpOption : OptionSpec := ⟨"help", some 'h', false, false⟩

def versionOption : OptionSpec := ⟨"version", some 'V', false, false⟩

/-- Options that stand at every place. -/
def commonOptions : List OptionSpec := [verboseOption, configOption, helpOption, versionOption]

def docOption : OptionSpec := ⟨"doc", some 'd', true, false⟩

def outputOption : OptionSpec := ⟨"output", some 'o', true, true⟩

def fieldOption : OptionSpec := ⟨"field", some 'f', true, false⟩

def strictOption : OptionSpec := ⟨"strict", none, false, false⟩

inductive CommandName where
  | validate
  | cddl
  | refs
  | metadata
deriving DecidableEq, Repr

namespace CommandName

def word : CommandName → String
  | .validate => "validate"
  | .cddl => "cddl"
  | .refs => "refs"
  | .metadata => "metadata"

def all : List CommandName := [.validate, .cddl, .refs, .metadata]

def options : CommandName → List OptionSpec
  | .validate => strictOption :: commonOptions
  | .cddl => docOption :: outputOption :: commonOptions
  | .refs => docOption :: commonOptions
  | .metadata => docOption :: fieldOption :: commonOptions

/-- How many arguments without a hyphen there may be. -/
def places : CommandName → Nat
  | .cddl => 2
  | _ => 1

end CommandName

/-! ## Reading one place -/

/-- What was given at one place: options with their values, and other arguments. -/
structure Given where
  options : List (String × String)
  words : List String
deriving DecidableEq, Repr

def Given.empty : Given := ⟨[], []⟩

def Given.has (g : Given) (o : OptionSpec) : Bool := (g.options.lookup o.name).isSome

def Given.value? (g : Given) (o : OptionSpec) : Option String := g.options.lookup o.name

/-- Why the arguments of one place are not just given. -/
inductive Stop where
  | misuse
  | help
  | version
deriving DecidableEq, Repr

/-- An option with its value, once. -/
def Given.add (g : Given) (o : OptionSpec) (value : String) : Except Stop Given :=
  if o = helpOption then .error .help
  else if o = versionOption then .error .version
  else if g.has o ∨ (o.isPath ∧ value.isEmpty) then .error .misuse
  else .ok { g with options := g.options ++ [(o.name, value)] }

/-- A word that is no option. -/
def isWord (arg : String) : Bool := arg.toList.head? != some '-' || arg == "-"

/-- The next argument as a value. -/
def nextValue : List String → Except Stop (String × List String)
  | arg :: rest => if isWord arg then .ok (arg, rest) else .error .misuse
  | [] => .error .misuse

/-- Options behind one hyphen. -/
def letters (specs : List OptionSpec) (g : Given) : List Char → List String →
    Except Stop (Given × List String)
  | [], rest => .ok (g, rest)
  | c :: cs, rest =>
    match specs.find? fun o => o.letter == some c with
    | none => .error .misuse
    | some o =>
      if o.takesValue then
        match cs with
        | [] => do
          let (v, rest) ← nextValue rest
          pure (← g.add o v, rest)
        | '=' :: v => do pure (← g.add o (String.ofList v), rest)
        | v => do pure (← g.add o (String.ofList v), rest)
      else do
        let g ← g.add o ""
        letters specs g cs rest

/-- An option behind two hyphens. -/
def longOption (specs : List OptionSpec) (g : Given) (body : List Char) (rest : List String) :
    Except Stop (Given × List String) :=
  let name := String.ofList (body.takeWhile (· != '='))
  let attached := body.dropWhile (· != '=')
  match specs.find? fun o => o.name == name with
  | none => .error .misuse
  | some o =>
    match o.takesValue, attached with
    | true, '=' :: v => do pure (← g.add o (String.ofList v), rest)
    | true, _ => do
      let (v, rest) ← nextValue rest
      pure (← g.add o v, rest)
    | false, [] => do pure (← g.add o "", rest)
    | false, _ => .error .misuse

/-- The next argument, which begins with a hyphen. -/
def optionArg (specs : List OptionSpec) (g : Given) (arg : String) (rest : List String) :
    Except Stop (Given × List String) :=
  match arg.toList with
  | '-' :: '-' :: body => longOption specs g body rest
  | _ :: cs => letters specs g cs rest
  | [] => .error .misuse

/-- Arguments up to the name of a command. -/
def beforeCommand : Nat → Given → List String → Except Stop (Given × CommandName × List String)
  | 0, _, _ => .error .misuse
  | _ + 1, _, [] => .error .misuse
  | fuel + 1, g, arg :: rest =>
    if arg = "--" then .error .misuse
    else if isWord arg then
      match CommandName.all.find? fun c => c.word == arg with
      | some c => .ok (g, c, rest)
      | none => .error (if arg = "help" then .help else .misuse)
    else do
      let (g, rest) ← optionArg commonOptions g arg rest
      beforeCommand fuel g rest

/-- Arguments of a command. -/
def ofCommand (c : CommandName) : Nat → Given → List String → Except Stop Given
  | 0, g, _ => .ok g
  | _ + 1, g, [] => .ok g
  | fuel + 1, g, arg :: rest =>
    if arg = "--" then .ok { g with words := g.words ++ rest }
    else if isWord arg then
      if g.words.length < c.places then ofCommand c fuel { g with words := g.words ++ [arg] } rest
      else .error .misuse
    else do
      let (g, rest) ← optionArg c.options g arg rest
      ofCommand c fuel g rest

/-! ## Requests -/

/-- The root of a CDDL file if none is given. -/
def defaultRoot : String := "signed_document"

def commandOf (c : CommandName) (g : Given) : Option Command :=
  if c.places < g.words.length then none
  else match g.words with
    | [] => none
    | path :: more =>
      if path.isEmpty then none
      else some <| match c with
        | .validate => .validate path (g.has strictOption)
        | .cddl =>
          .cddl path (more.head?.getD defaultRoot) (g.value? docOption) (g.value? outputOption)
        | .refs => .refs path (g.value? docOption)
        | .metadata => .metadata path (g.value? docOption) (g.value? fieldOption)

/-- The name of the program. -/
def programName : String := "sdoc"

def stopped (program : String) : Stop → Option Request
  | .misuse => none
  | .help => some .help
  | .version => some (.version program)

/-- What some arguments ask for; `none` if they are misused. -/
def request (args : List String) : Option Request :=
  match beforeCommand (args.length + 1) .empty args with
  | .error stop => stopped programName stop
  | .ok (outer, c, rest) =>
    match ofCommand c (rest.length + 1) .empty rest with
    | .error stop => stopped (programName ++ "-" ++ c.word) stop
    | .ok g => (commandOf c g).map fun command => .run {
        verbose := outer.has verboseOption || g.has verboseOption
        config := (g.value? configOption).or (outer.value? configOption)
        command }

end SignedDocs.CommandLine
