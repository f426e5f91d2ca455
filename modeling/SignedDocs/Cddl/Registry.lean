import SignedDocs.Cddl.Group

/-!
All definitions of a specification.

* `get`: a synthesized definition, or why it could not be synthesized, hides a
  declared one of the same name.
* `unresolved`: declared definitions with the names they require in vain.
* `resolve`: a definition, followed by those it requires, depth first, each once.
-/

namespace SignedDocs.Cddl

/-- Why there is no definition of a name. -/
inductive LookupError where
  | notFound (name : String)
  | failed (reason : GroupError)
deriving DecidableEq, Repr

/-- Declared definitions under their names, and outcomes of syntheses. -/
structure Registry where
  definitions : Table Definition
  synthesized : Table (Except GroupError Definition)

namespace Registry

/-- Rules as declared definitions: each is given its name. -/
def ofRules (rules : Table Rule) : Registry :=
  ⟨rules.mapValues fun name rule => ⟨name, rule⟩, Table.empty⟩

instance : Inhabited Registry := ⟨ofRules Table.empty⟩

/-- The outcome of a synthesis, stored under a name. -/
def addSynthesized (r : Registry) (name : String) (outcome : Except GroupError Definition) :
    Registry :=
  { r with synthesized := r.synthesized.insert name outcome }

/-- The declared definition of a name. -/
def declared? (r : Registry) (name : String) : Option Definition := r.definitions.get? name

/-- The rules as they were declared. -/
def declared (r : Registry) : Table Rule := r.definitions.mapValues fun _ d => d.rule

def get (r : Registry) (name : String) : Except LookupError Definition :=
  match r.synthesized.get? name with
  | some outcome => outcome.mapError .failed
  | none => match r.declared? name with
    | some d => .ok d
    | none => .error (.notFound name)

def contains (r : Registry) (name : String) : Bool :=
  r.synthesized.contains name || r.definitions.contains name

/-- Declared names, then the names that are only synthesized. -/
def names (r : Registry) : List String :=
  r.definitions.keys ++ r.synthesized.keys.filter fun n => !r.definitions.contains n

/-- Pairs of a declared definition and a name it requires that is neither declared
nor among the known ones. -/
def unresolved (r : Registry) (known : List String) : List (String × String) :=
  r.definitions.entries.flatMap fun e =>
    (e.2.rule.requires.filter fun n => !r.definitions.contains n && !known.contains n).map fun n =>
      (e.1, n)

/-! ## Resolution -/

/-- The name of a definition was met. -/
def isSeen (seen : List Definition) (name : String) : Bool := seen.any (·.name == name)

/-- `seen`, then the definition of `name` and what it requires as far as it was not
seen. Definitions are recognised by the names they carry. -/
def visit (r : Registry) : Nat → List Definition → String → Except LookupError (List Definition)
  | 0, seen, _ => .ok seen
  | fuel + 1, seen, name => do
    let d ← r.get name
    d.rule.requires.foldlM
      (fun seen n => if isSeen seen n then pure seen else r.visit fuel seen n) (seen ++ [d])

/-- Longest chain of requirements: between two definitions that are met for the
first time there are only some that carry another name than their own. -/
def longestChain (r : Registry) : Nat := (r.names.length + 1) * (r.names.length + 2)

/-- The definitions that are needed for a root, the root first. -/
def resolve (r : Registry) (root : String) : Except LookupError (List Definition) :=
  r.visit (r.longestChain + 1) [] root

/-! ## Declared definitions -/

theorem keys_declared (r : Registry) : r.declared.keys = r.definitions.keys :=
  Table.keys_mapValues r.definitions _

/-- A rule belongs to a definition. -/
theorem get?_declared_eq_some_iff {r : Registry} {name : String} {rule : Rule} :
    r.declared.get? name = some rule ↔ ∃ d, r.declared? name = some d ∧ d.rule = rule := by
  unfold declared
  rw [Table.get?_mapValues, Option.map_eq_some_iff]
  rfl

/-- What holds of all declared rules holds of the rules of all declared definitions. -/
theorem forall_declared {r : Registry} {P : Rule → Prop} :
    (∀ name rule, r.declared.get? name = some rule → P rule) ↔
      ∀ name d, r.declared? name = some d → P d.rule := by
  constructor
  · intro H name d hd
    exact H name d.rule (get?_declared_eq_some_iff.mpr ⟨d, hd, rfl⟩)
  · intro H name rule hr
    obtain ⟨d, hd, rfl⟩ := get?_declared_eq_some_iff.mp hr
    exact H name d hd

theorem keys_definitions_ofRules (rules : Table Rule) :
    (ofRules rules).definitions.keys = rules.keys := Table.keys_mapValues rules _

theorem declared?_ofRules (rules : Table Rule) (name : String) :
    (ofRules rules).declared? name = (rules.get? name).map fun rule => ⟨name, rule⟩ :=
  Table.get?_mapValues rules _ name

theorem name_of_declared?_ofRules {rules : Table Rule} {name : String} {d : Definition}
    (h : (ofRules rules).declared? name = some d) : d.name = name := by
  rw [declared?_ofRules] at h
  obtain ⟨rule, -, rfl⟩ := Option.map_eq_some_iff.mp h
  rfl

/-- The rules stay as they are. -/
theorem declared_ofRules (rules : Table Rule) : (ofRules rules).declared = rules := by
  refine Table.ext ?_
  show (rules.entries.map _).map _ = rules.entries
  rw [List.map_map]
  exact List.map_id' _

end Registry

end SignedDocs.Cddl
