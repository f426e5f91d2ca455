import SignedDocs.Cddl.File
import SignedDocs.Proofs.CodecLaws
import SignedDocs.Proofs.Resolution

/-!
Requirements, all at once and along a walk.

* `unresolved_agrees_with_resolve`: the scan of all declared rules and the walks from their names
  find the same requirements without a rule.
* `addSynthesized_unneeded`: what is stored for a name concerns only the roots that need it.
-/

namespace SignedDocs.Cddl.Registry

/-! ## The scan -/

/-- A pair is reported if a declared rule requires a name that is neither declared nor known. -/
theorem mem_unresolved_iff {r : Registry} {known : List String} {d m : String} :
    (d, m) ∈ r.unresolved known ↔ (∃ rule, r.declared.get? d = some rule ∧ m ∈ rule.requires) ∧
      m ∉ r.declared.keys ∧ m ∉ known := by
  have hopen : ∀ n, (!r.definitions.contains n && !known.contains n) = true ↔
      n ∉ r.declared.keys ∧ n ∉ known := by
    intro n
    rw [Bool.and_eq_true, Bool.not_eq_true', Bool.not_eq_true', ← Bool.not_eq_true,
      ← Bool.not_eq_true, Table.contains_iff, List.contains_iff_mem, keys_declared]
  unfold unresolved
  rw [List.mem_flatMap]
  constructor
  · rintro ⟨e, he, hm⟩
    obtain ⟨n, hn, heq⟩ := List.mem_map.mp hm
    cases heq
    obtain ⟨hrequired, hmissing⟩ := List.mem_filter.mp hn
    have hrule : r.declared.get? e.1 = some e.2.rule :=
      get?_declared_eq_some_iff.mpr ⟨e.2, Table.get?_eq_some_iff.mpr he, rfl⟩
    exact ⟨⟨e.2.rule, hrule, hrequired⟩, (hopen _).mp hmissing⟩
  · rintro ⟨⟨rule, hrule, hrequired⟩, hmissing⟩
    obtain ⟨e, he, rfl⟩ := get?_declared_eq_some_iff.mp hrule
    refine ⟨(d, e), Table.get?_eq_some_iff.mp he, List.mem_map.mpr ⟨m, ?_, rfl⟩⟩
    exact List.mem_filter.mpr ⟨hrequired, (hopen m).mpr hmissing⟩

/-! ## Declared rules only -/

section Declared

variable {rules : Table Rule} {root n m : String}

theorem names_ofRules (rules : Table Rule) : (ofRules rules).names = rules.keys :=
  (List.append_nil (ofRules rules).definitions.keys).trans (Table.keys_mapValues rules _)

theorem get_ofRules {rule : Rule} (h : rules.get? n = some rule) :
    (ofRules rules).get n = .ok ⟨n, rule⟩ := by
  refine get_eq_ok_iff.mpr (Or.inr ⟨rfl, ?_⟩)
  rw [declared?_ofRules, h]
  rfl

/-- Without syntheses a name that is not declared cannot be found, and nothing else fails. -/
theorem get_ofRules_eq_error_iff {e : LookupError} :
    (ofRules rules).get n = .error e ↔ n ∉ rules.keys ∧ e = .notFound n := by
  by_cases hn : n ∈ rules.keys
  · obtain ⟨rule, hrule⟩ := Table.mem_keys_iff.mp hn
    rw [get_ofRules hrule]
    simp [hn]
  · have hget : (ofRules rules).get n = .error (.notFound n) := by
      rw [get_eq_notFound_iff, names_ofRules]
      exact hn
    rw [hget]
    simp [hn, eq_comm]

theorem mem_required_ofRules_iff : m ∈ (ofRules rules).required n ↔
    ∃ rule, rules.get? n = some rule ∧ m ∈ rule.requires := by
  constructor
  · intro hm
    have hn := mem_names_of_required (List.ne_nil_of_mem hm)
    rw [names_ofRules] at hn
    obtain ⟨rule, hrule⟩ := Table.mem_keys_iff.mp hn
    rw [required_of_get (get_ofRules hrule)] at hm
    exact ⟨rule, hrule, hm⟩
  · rintro ⟨rule, hrule, hm⟩
    rw [required_of_get (get_ofRules hrule)]
    exact hm

theorem mem_unresolved_ofRules_iff : (n, m) ∈ (ofRules rules).unresolved [] ↔
    m ∈ (ofRules rules).required n ∧ m ∉ rules.keys := by
  rw [mem_unresolved_iff, mem_required_ofRules_iff, declared_ofRules]
  exact and_congr_right fun _ => and_iff_left List.not_mem_nil

/-- Before a walk from a declared root meets a name without a rule, it meets one that
requires it. -/
theorem exists_unresolved_of_needs (hroot : root ∈ rules.keys)
    (hneeds : (ofRules rules).Needs root m) (hm : m ∉ rules.keys) :
    ∃ d, (ofRules rules).Needs root d ∧ (d, m) ∈ (ofRules rules).unresolved [] := by
  cases hneeds with
  | refl => exact absurd hroot hm
  | tail hd hstep => exact ⟨_, hd, mem_unresolved_ofRules_iff.mpr ⟨hstep, hm⟩⟩

/-- The failure of a declared root is one that the scan reports. -/
theorem unresolved_of_resolve_error (hroot : root ∈ rules.keys) {e : LookupError}
    (he : (ofRules rules).resolve root = .error e) :
    ∃ d m, (ofRules rules).Needs root d ∧ (d, m) ∈ (ofRules rules).unresolved [] ∧
      e = .notFound m := by
  obtain ⟨m, hneeds, hget⟩ := exists_of_resolve_error (named_ofRules rules) he
  obtain ⟨hm, rfl⟩ := get_ofRules_eq_error_iff.mp hget
  obtain ⟨d, hd, hpair⟩ := exists_unresolved_of_needs hroot hneeds hm
  exact ⟨d, m, hd, hpair, rfl⟩

/-- No root that needs a reported rule is resolved. -/
theorem resolve_ne_ok_of_unresolved (hpair : (n, m) ∈ (ofRules rules).unresolved [])
    (hneeds : (ofRules rules).Needs root n) (ds : List Definition) :
    (ofRules rules).resolve root ≠ .ok ds := by
  intro hresolve
  obtain ⟨hrequired, hm⟩ := mem_unresolved_ofRules_iff.mp hpair
  obtain ⟨d, hd⟩ := (exists_resolve_iff (named_ofRules rules)).mp ⟨ds, hresolve⟩ m (hneeds.tail hrequired)
  rw [get_ofRules_eq_error_iff.mpr ⟨hm, rfl⟩] at hd
  cases hd

theorem exists_failure_of_unresolved (hroot : root ∈ rules.keys)
    (hpair : (n, m) ∈ (ofRules rules).unresolved []) (hneeds : (ofRules rules).Needs root n) :
    ∃ d l, (ofRules rules).Needs root d ∧ (d, l) ∈ (ofRules rules).unresolved [] ∧
      (ofRules rules).resolve root = .error (.notFound l) := by
  cases hresolve : (ofRules rules).resolve root with
  | ok ds => exact absurd hresolve (resolve_ne_ok_of_unresolved hpair hneeds ds)
  | error e =>
    obtain ⟨d, l, hd, hreported, rfl⟩ := unresolved_of_resolve_error hroot hresolve
    exact ⟨d, l, hd, hreported, rfl⟩

/-- The scan and the walks agree on declared rules, with cycles or not: the scan reports nothing
exactly if every declared name is resolved; a reported rule is declared, it cannot be resolved,
nor can any declared name that needs it, and each of these fails with a name that the scan
reports for a rule it needs. -/
theorem unresolved_agrees_with_resolve (rules : Table Rule) :
    ((ofRules rules).unresolved [] = [] ↔
      ∀ root ∈ rules.keys, ∃ ds, (ofRules rules).resolve root = .ok ds) ∧
    ∀ d m, (d, m) ∈ (ofRules rules).unresolved [] → d ∈ rules.keys ∧
      (∃ l, (ofRules rules).resolve d = .error (.notFound l)) ∧
      ∀ root ∈ rules.keys, (ofRules rules).Needs root d → ∃ e l,
        (ofRules rules).Needs root e ∧ (e, l) ∈ (ofRules rules).unresolved [] ∧
          (ofRules rules).resolve root = .error (.notFound l) := by
  have hdeclared : ∀ d m, (d, m) ∈ (ofRules rules).unresolved [] → d ∈ rules.keys := by
    intro d m hpair
    obtain ⟨⟨rule, hrule, -⟩, -⟩ := mem_unresolved_iff.mp hpair
    rw [declared_ofRules] at hrule
    exact Table.mem_keys_iff.mpr ⟨rule, hrule⟩
  refine ⟨⟨?_, ?_⟩, ?_⟩
  · intro hnone root hroot
    cases hresolve : (ofRules rules).resolve root with
    | ok ds => exact ⟨ds, rfl⟩
    | error e =>
      obtain ⟨d, m, -, hpair, -⟩ := unresolved_of_resolve_error hroot hresolve
      rw [hnone] at hpair
      cases hpair
  · intro hall
    refine List.eq_nil_iff_forall_not_mem.mpr ?_
    rintro ⟨d, m⟩ hpair
    obtain ⟨ds, hresolve⟩ := hall d (hdeclared d m hpair)
    exact resolve_ne_ok_of_unresolved hpair .refl ds hresolve
  · intro d m hpair
    obtain ⟨-, l, -, -, hfail⟩ := exists_failure_of_unresolved (hdeclared d m hpair) hpair .refl
    refine ⟨hdeclared d m hpair, ⟨l, hfail⟩, ?_⟩
    exact fun root hroot hneeds => exists_failure_of_unresolved hroot hpair hneeds

end Declared

/-- Trees whose leaves are not declared, and stems. -/
def leaflessRules : Table Rule :=
  ⟨[("tree", ⟨"[* node]", ["node"], none, none⟩),
    ("node", ⟨"tree / leaf", ["tree", "leaf"], none, none⟩),
    ("stem", ⟨"uint", [], none, none⟩)], by decide⟩

/-- The cycle of trees and nodes hides nothing: from either side the leaves are missed. -/
theorem leaflessRules_reported : ("node", "leaf") ∈ (ofRules leaflessRules).unresolved [] ∧
    (∃ l, (ofRules leaflessRules).resolve "node" = .error (.notFound l)) ∧
    (ofRules leaflessRules).Needs "tree" "node" ∧
    (∃ e l, (ofRules leaflessRules).Needs "tree" e ∧
      (e, l) ∈ (ofRules leaflessRules).unresolved [] ∧
      (ofRules leaflessRules).resolve "tree" = .error (.notFound l)) ∧
    ∃ ds, (ofRules leaflessRules).resolve "stem" = .ok ds := by
  have hpair : ("node", "leaf") ∈ (ofRules leaflessRules).unresolved [] := by decide
  have hneeds : (ofRules leaflessRules).Needs "tree" "node" :=
    .single (show "node" ∈ ["node"] from List.mem_singleton_self _)
  obtain ⟨-, hnode, hroots⟩ := (unresolved_agrees_with_resolve leaflessRules).2 _ _ hpair
  exact ⟨hpair, hnode, hneeds, hroots "tree" (by decide) hneeds, _, rfl⟩

/-! ## Stored outcomes -/

section Stored

variable {r r' : Registry} {root name : String}

/-- Registries that agree on all that a root needs resolve it alike. -/
theorem resolve_congr (h : r.Named) (h' : r'.Named)
    (hget : ∀ n, r.Needs root n → r'.get n = r.get n) : r'.resolve root = r.resolve root := by
  obtain ⟨order, ho, hresolve⟩ := exists_preorder_resolve h root
  obtain ⟨order', ho', hresolve'⟩ := exists_preorder_resolve h' root
  have hsame : ∀ n ∈ order, r'.get n = r.get n := fun n hn => hget n (ho.mem_iff.mp hn)
  have hrequired : ∀ n ∈ order, r.required n = r'.required n := by
    intro n hn
    unfold required
    rw [hsame n hn]
  have horder : order = order' := (ho.congr hrequired).unique ho'
  rw [hresolve, hresolve', ← horder]
  exact mapM_congr hsame

/-- What is stored for a name, a definition or a failure, makes no difference to a root that does
not need the name: it is resolved as before, or fails as before, and so does its file. -/
theorem addSynthesized_unneeded (h : ∀ n d, r.get n = .ok d → d.name = n)
    (outcome : Except GroupError Definition) (named : ∀ d, outcome = .ok d → d.name = name)
    (hroot : ¬ r.Needs root name) :
    (r.addSynthesized name outcome).resolve root = r.resolve root ∧
    (r.addSynthesized name outcome).file root = r.file root := by
  have hnamed : r.Named := h
  have hresolve : (r.addSynthesized name outcome).resolve root = r.resolve root := by
    refine resolve_congr hnamed (hnamed.addSynthesized named) fun n hn => ?_
    refine get_addSynthesized_of_ne fun hname => hroot ?_
    rw [← hname]
    exact hn
  refine ⟨hresolve, ?_⟩
  unfold file
  rw [hresolve]

end Stored

/-- Trees that can no longer be had. -/
def felledRegistry : Registry :=
  treeRegistry.addSynthesized "tree" (.error (.unknownFormat "tree" "Wood"))

/-- A leaf stays what it was, a node is lost with the trees. -/
theorem felledRegistry_leaf : (∀ n d, treeRegistry.get n = .ok d → d.name = n) ∧
    ¬ treeRegistry.Needs "leaf" "tree" ∧
    felledRegistry.resolve "leaf" = treeRegistry.resolve "leaf" ∧
    felledRegistry.file "leaf" = .ok "; leaf\n\n\nleaf = uint\n" ∧
    felledRegistry.file "node" = .error (.failed (.unknownFormat "tree" "Wood")) := by
  have hnames : ∀ n d, treeRegistry.get n = .ok d → d.name = n :=
    (named_ofRules _).addSynthesized (by rintro _ ⟨⟩; rfl)
  have hleaf : ∀ n, treeRegistry.Needs "leaf" n → n = "leaf" := by
    intro n hn
    induction hn with
    | refl => rfl
    | tail _ hstep ih =>
      subst ih
      exact List.mem_singleton.mp hstep
  have hunneeded : ¬ treeRegistry.Needs "leaf" "tree" := fun h => absurd (hleaf _ h) (by decide)
  obtain ⟨hresolve, hfile⟩ := addSynthesized_unneeded hnames
    (.error (.unknownFormat "tree" "Wood")) (by rintro _ ⟨⟩) hunneeded
  exact ⟨hnames, hunneeded, hresolve, hfile.trans rfl, rfl⟩

end SignedDocs.Cddl.Registry
