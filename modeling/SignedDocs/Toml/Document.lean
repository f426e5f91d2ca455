import SignedDocs.Number.Binary64

/-!
TOML documents: values under keys, in the order in which they are first written.

* `descend`: the table at the end of a path. Missing tables are made on the way;
  of an array of tables the last one is meant.
* A key is set once. Dotted keys do not reach into a table that has a header, and
  a header does not open a table twice.
-/

namespace SignedDocs.Toml

/-- A part of a text, by the numbers of bytes before its start and its end. -/
structure Span where
  start : Nat
  stop : Nat
deriving DecidableEq, Repr, Inhabited

inductive Value where
  | string (s : String)
  | bool (b : Bool)
  | integer (n : Int)
  | real (x : Binary64)
  | infinity (negative : Bool)
  | nan
  | moment
  | array (items : List Value)
  | table (entries : List (String × Value))

/-- How a table came to be: by its own header, on the way to another table, or by
a dotted key. -/
inductive Origin where
  | header
  | implicit
  | dotted
deriving DecidableEq, Repr

structure Key where
  name : String
  span : Span
deriving DecidableEq, Repr

/-- What stands under a key. -/
inductive Node where
  | value (span : Span) (v : Value)
  | table (span : Span) (origin : Origin) (entries : List (Key × Node))
  | tables (span : Span) (last : List (Key × Node)) (others : Nat)

abbrev Entries := List (Key × Node)

/-- Why a text is no document. -/
inductive Fault where
  | malformed
  | duplicateKey (name : String)
deriving DecidableEq, Repr

def find? (es : Entries) (name : String) : Option Node :=
  (es.find? fun e => e.1.name == name).map Prod.snd

/-- The entries with another node under a key. -/
def replace (es : Entries) (name : String) (node : Node) : Entries :=
  es.map fun e => if e.1.name = name then (e.1, node) else e

/-- Changes the table at the end of a path. -/
def descend (dotted : Bool) (change : Origin → Entries → Except Fault Entries) :
    List Key → Origin → Entries → Except Fault Entries
  | [], origin, es => change origin es
  | k :: ks, _, es =>
    match find? es k.name with
    | none => do
      let origin : Origin := if dotted then .dotted else .implicit
      let sub ← descend dotted change ks origin []
      pure (es ++ [(k, .table k.span origin sub)])
    | some (.table span origin sub) =>
      if dotted && origin == .header then .error (.duplicateKey k.name)
      else do
        let sub ← descend dotted change ks origin sub
        pure (replace es k.name (.table span origin sub))
    | some (.tables span last others) => do
      let last ← descend dotted change ks .header last
      pure (replace es k.name (.tables span last others))
    | some (.value _ _) => .error (.duplicateKey k.name)

/-- A value under a key that is free; the keys before it are dotted. -/
def setKey (path : List Key) (key : Key) (span : Span) (v : Value) (origin : Origin)
    (es : Entries) : Except Fault Entries :=
  descend true (fun origin es =>
    if (origin == .dotted) == path.isEmpty then .error (.duplicateKey key.name)
    else match find? es key.name with
      | some _ => .error (.duplicateKey key.name)
      | none => .ok (es ++ [(key, .value span v)])) path origin es

/-- Opens the table of a header; one that was only made on the way is moved to the end. -/
def openTable (key : Key) (span : Span) (_ : Origin) (es : Entries) : Except Fault Entries :=
  match find? es key.name with
  | none => .ok (es ++ [(key, .table span .header [])])
  | some (.table _ .implicit sub) =>
    .ok (es.filter (fun e => e.1.name != key.name) ++ [(key, .table span .header sub)])
  | some _ => .error (.duplicateKey key.name)

/-- Opens a further table of an array. -/
def openNext (key : Key) (span : Span) (_ : Origin) (es : Entries) : Except Fault Entries :=
  match find? es key.name with
  | none => .ok (es ++ [(key, .tables span [] 0)])
  | some (.tables first _ others) => .ok (replace es key.name (.tables first [] (others + 1)))
  | some _ => .error (.duplicateKey key.name)

/-- A document while it is read: all entries and the path of the last header. -/
structure Draft where
  root : Entries
  header : List Key

namespace Draft

def empty : Draft := ⟨[], []⟩

/-- Changes the table of the last header. -/
def inCurrent (d : Draft) (change : Origin → Entries → Except Fault Entries) :
    Except Fault Draft := do
  let root ← descend false change d.header .header d.root
  pure { d with root := root }

/-- A header with one or two brackets. -/
def openHeader (d : Draft) (path : List Key) (key : Key) (span : Span) (next : Bool) :
    Except Fault Draft := do
  let root ← descend false (if next then openNext key span else openTable key span) path .header
    d.root
  pure ⟨root, path ++ [key]⟩

end Draft

/-- The table that dotted keys without a header make, for tables in one line. -/
def plainValues : List (String × Value) → List String × Value → Except Fault (List (String × Value))
  | es, ([], _) => .ok es
  | es, ([name], v) =>
    if (es.lookup name).isSome then .error (.duplicateKey name) else .ok (es ++ [(name, v)])
  | es, (name :: path, v) => do
    match es.lookup name with
    | none =>
      let sub ← plainValues [] (path, v)
      pure (es ++ [(name, .table sub)])
    | some (.table sub) =>
      let sub ← plainValues sub (path, v)
      pure (es.map fun e => if e.1 = name then (name, .table sub) else e)
    | some _ => .error (.duplicateKey name)

end SignedDocs.Toml
