import Mathlib.Data.List.Induction
import SignedDocs.Proofs.Resolution
import SignedDocs.Proofs.TableExtension

/-!
Outcomes of syntheses, stored one after the other.

* `Registry.addAll`: declared rules with any outcomes stored after them, under names that are
  declared, or that were stored before, or that are new.
* `Registry.Records`: what such a registry shows: its names, which names it contains, and what is
  found under them.
* `Registry.records_addAll`: it shows this after any outcomes.
-/

namespace SignedDocs

namespace Cddl.Registry

/-! ## Any outcomes -/

/-- The registry after outcomes were stored under their names, one after the other. -/
def addAll (r : Registry) (calls : List (String × Except GroupError Definition)) : Registry :=
  calls.foldl (fun r c => r.addSynthesized c.1 c.2) r

/-- A registry of declared rules after some outcomes were stored: each name is listed once, the
declared ones in the order of declaration and then the others as they came first; listed,
contained and found are the same names; what was stored last under a name, definition or
failure, is found there, and otherwise what is declared; and this stays as it is. -/
structure Records (rules : Table Rule) (calls : List (String × Except GroupError Definition))
    (r : Registry) : Prop where
  nodup : r.names.Nodup
  names : ∃ added, r.names = rules.keys ++ added ∧
    added.Pairwise (Earlier (calls.map Prod.fst)) ∧
    ∀ n, n ∈ added ↔ n ∈ calls.map Prod.fst ∧ n ∉ rules.keys
  contains : ∀ n, r.contains n = true ↔ n ∈ r.names
  found : ∀ n, (∀ m, r.get n ≠ .error (.notFound m)) ↔ n ∈ r.names
  stored : ∀ before n outcome after, calls = before ++ (n, outcome) :: after →
    n ∉ after.map Prod.fst →
      (∀ d, outcome = .ok d → r.get n = .ok d) ∧
      ∀ e, outcome = .error e → r.get n = .error (.failed e)
  declaredOnly : ∀ n, n ∉ calls.map Prod.fst →
    (∀ d, r.declared? n = some d → r.get n = .ok d) ∧
    (r.declared? n = none → r.get n = .error (.notFound n))
  declared : ∀ n, r.declared? n = (rules.get? n).map fun rule => ⟨n, rule⟩

section

variable {r : Registry} {outcome : Except GroupError Definition} {n : String}

theorem contains_iff : r.contains n = true ↔ n ∈ r.names := by
  unfold contains
  rw [Bool.or_eq_true, Table.contains_iff, Table.contains_iff, mem_names, keys_declared]
  exact Or.comm

/-- What is stored is found, as a definition or as a failure. -/
theorem get_of_stored (h : r.synthesized.get? n = some outcome) :
    r.get n = outcome.mapError .failed := by
  unfold get
  rw [h]

/-- What is declared is found if nothing is stored over it. -/
theorem get_of_declared {d : Definition} (h : r.synthesized.get? n = none)
    (hd : r.declared? n = some d) : r.get n = .ok d := by
  unfold get
  rw [h, hd]

theorem get_of_undeclared (h : r.synthesized.get? n = none)
    (hd : r.declared? n = none) : r.get n = .error (.notFound n) := by
  unfold get
  rw [h, hd]

/-- A name that is not found is the one that was looked for. -/
theorem eq_of_get_notFound {m : String} (h : r.get n = .error (.notFound m)) : m = n := by
  unfold get at h
  cases hstored : r.synthesized.get? n with
  | some outcome =>
    rw [hstored] at h
    cases outcome <;> cases h
  | none =>
    rw [hstored] at h
    cases hdeclared : r.declared? n with
    | some d =>
      rw [hdeclared] at h
      cases h
    | none =>
      rw [hdeclared] at h
      cases h
      rfl

theorem get_ne_notFound_iff :
    (∀ m, r.get n ≠ .error (.notFound m)) ↔ n ∈ r.names := by
  constructor
  · intro h
    apply Classical.byContradiction
    intro hn
    exact h n (get_eq_notFound_iff.mpr hn)
  · intro hn m hm
    rw [eq_of_get_notFound hm] at hm
    exact get_eq_notFound_iff.mp hm hn

end

/-! ## After all of them -/

section

variable (rules : Table Rule) (calls : List (String × Except GroupError Definition))

/-- All outcomes go to one table, and the declared rules stay. -/
theorem addAll_ofRules :
    (ofRules rules).addAll calls = ⟨(ofRules rules).definitions, Table.ofList calls⟩ := by
  induction calls using List.reverseRecOn with
  | nil => rfl
  | append_singleton calls call ih =>
    have hstep : (ofRules rules).addAll (calls ++ [call]) =
        ((ofRules rules).addAll calls).addSynthesized call.1 call.2 := List.foldl_concat ..
    rw [hstep, ih, Table.ofList_concat]
    rfl

/-- Names that are stored and not declared, as they were first stored. -/
def addedNames : List String :=
  (calls.map Prod.fst).eraseDups.filter fun n => !rules.contains n

theorem names_addAll :
    ((ofRules rules).addAll calls).names = rules.keys ++ addedNames rules calls := by
  unfold addedNames names Table.contains
  rw [addAll_ofRules, Table.keys_ofList, keys_definitions_ofRules]

theorem mem_addedNames {n : String} :
    n ∈ addedNames rules calls ↔ n ∈ calls.map Prod.fst ∧ n ∉ rules.keys := by
  unfold addedNames
  rw [List.mem_filter, List.mem_eraseDups, Bool.not_eq_true', ← Bool.not_eq_true,
    Table.contains_iff]

theorem pairwise_earlier_addedNames :
    (addedNames rules calls).Pairwise (Earlier (calls.map Prod.fst)) :=
  (pairwise_earlier_eraseDups _).filter _

theorem nodup_names_addAll : ((ofRules rules).addAll calls).names.Nodup := by
  rw [names_addAll]
  refine List.nodup_append.mpr ⟨rules.keys_nodup,
    nodup_of_pairwise_earlier (pairwise_earlier_addedNames rules calls), ?_⟩
  rintro a ha b hb rfl
  exact ((mem_addedNames rules calls).mp hb).2 ha

variable {calls}

/-- The last outcome of a name is found. -/
theorem get_addAll_of_last {before after : List (String × Except GroupError Definition)}
    {n : String} {outcome : Except GroupError Definition} (h : n ∉ after.map Prod.fst) :
    ((ofRules rules).addAll (before ++ (n, outcome) :: after)).get n =
      outcome.mapError .failed := by
  rw [addAll_ofRules]
  exact get_of_stored (Table.get?_ofList_of_last h)

theorem get?_synthesized_addAll {n : String} (h : n ∉ calls.map Prod.fst) :
    ((ofRules rules).addAll calls).synthesized.get? n = none := by
  rw [addAll_ofRules, Table.get?_eq_none_iff, Table.keys_ofList, List.mem_eraseDups]
  exact h

end

/-- Whatever rules are declared and whatever is stored after them, in any order and under any
names: the registry shows exactly this. -/
theorem records_addAll (rules : Table Rule)
    (calls : List (String × Except GroupError Definition)) :
    Records rules calls ((ofRules rules).addAll calls) where
  nodup := nodup_names_addAll rules calls
  names := ⟨_, names_addAll rules calls, pairwise_earlier_addedNames rules calls,
    fun _ => mem_addedNames rules calls⟩
  contains _ := contains_iff
  found _ := get_ne_notFound_iff
  stored := by
    rintro before n outcome after rfl hn
    rw [get_addAll_of_last rules hn]
    constructor
    · rintro d rfl
      rfl
    · rintro e rfl
      rfl
  declaredOnly n hn :=
    have hstored := get?_synthesized_addAll rules hn
    ⟨fun _ => get_of_declared hstored, get_of_undeclared hstored⟩
  declared n := by
    rw [addAll_ofRules]
    exact declared?_ofRules rules n

/-- A failure hides the definition under it, and a name that is declared keeps its place. -/
example : (treeRegistry.addAll [("bark", .ok ⟨"bark", "text", [], none, none⟩),
    ("leaf", .error (.unknownFormat "leaf" "Wood"))]).names = ["tree", "node", "leaf", "bark"] ∧
    (treeRegistry.addAll [("leaf", .error (.unknownFormat "leaf" "Wood"))]).get "leaf" =
      .error (.failed (.unknownFormat "leaf" "Wood")) := by decide

end Cddl.Registry

end SignedDocs
