import SignedDocs.Cddl.Registry
import SignedDocs.Proofs.DepthFirst
import SignedDocs.Proofs.Outcomes

/-!
Resolution: a definition with all that it needs.

* `Built`: registries that arise from declared rules by storing outcomes of syntheses
  under the names they carry. They are `Named`: definitions are found under their own names.
* `Resolves`: the definitions that a root needs, in the preorder of what they require.
* `foldlM_follow`: the recursion of `visit` goes the way of a walk in depth and fails at
  the first name without a definition.
* `exists_preorder_resolve`: so a root is resolved along its preorder, and it can be exactly if all
  that it needs has a definition (`exists_resolve_iff`).
* `exists_of_resolve_ok`: what is resolved begins with the definition of the root, in any registry.
* `resolve_outcome`: what `resolve` gives, and when.
-/

namespace SignedDocs.Cddl.Registry

/-! ## Definitions of a registry -/

/-- Registries of declared rules, and of outcomes under the names they carry. -/
inductive Built : Registry → Prop where
  | ofRules (rules : Table Rule) : Built (ofRules rules)
  | addSynthesized {r : Registry} {name : String} {outcome : Except GroupError Definition}
      (built : Built r) (named : ∀ d, outcome = .ok d → d.name = name) :
      Built (r.addSynthesized name outcome)

/-- Names that the definition of a name requires; none if it has no definition. -/
def required (r : Registry) (name : String) : List String :=
  match r.get name with
  | .ok d => d.rule.requires
  | .error _ => []

/-- A name is required by another one, perhaps through others. -/
def Needs (r : Registry) : String → String → Prop := Leads r.required

/-- The definitions that a root needs, each once, as a walk in depth meets them: the root
first, and any other after one that requires it. -/
structure Resolves (r : Registry) (root : String) (ds : List Definition) : Prop where
  preorder : Preorder r.required root (ds.map Definition.name)
  stored : ∀ d ∈ ds, r.get d.name = .ok d
  first : ∃ d rest, ds = d :: rest ∧ r.get root = .ok d
  nodup : (ds.map Definition.name).Nodup
  mem_iff : ∀ n, n ∈ ds.map Definition.name ↔ r.Needs root n
  later : ∀ before d after, ds = before ++ d :: after → before ≠ [] →
    ∃ p ∈ before, d.name ∈ p.rule.requires

theorem mem_names {r : Registry} {n : String} :
    n ∈ r.names ↔ n ∈ r.declared.keys ∨ n ∈ r.synthesized.keys := by
  unfold names
  rw [List.mem_append, List.mem_filter, Bool.not_eq_true', ← Bool.not_eq_true,
    Table.contains_iff, keys_declared]
  by_cases h : n ∈ r.definitions.keys <;> simp [h]

/-- A definition comes from a synthesis, or it is a declared one that none hides. -/
theorem get_eq_ok_iff {r : Registry} {n : String} {d : Definition} :
    r.get n = .ok d ↔ r.synthesized.get? n = some (.ok d) ∨
      r.synthesized.get? n = none ∧ r.declared? n = some d := by
  unfold get
  cases r.synthesized.get? n with
  | some outcome => cases outcome <;> simp [Except.mapError]
  | none => cases r.declared? n <;> simp

/-- A name that is not listed has no definition, and only then it is said not to be found. -/
theorem get_eq_notFound_iff {r : Registry} {n : String} :
    r.get n = .error (.notFound n) ↔ n ∉ r.names := by
  rw [mem_names, not_or, keys_declared, ← Table.get?_eq_none_iff, ← Table.get?_eq_none_iff]
  unfold get declared?
  cases r.synthesized.get? n with
  | some outcome => cases outcome <;> simp [Except.mapError]
  | none => cases r.definitions.get? n <;> simp

theorem mem_names_of_get {r : Registry} {n : String} {d : Definition} (h : r.get n = .ok d) :
    n ∈ r.names := by
  apply Classical.byContradiction
  intro hn
  rw [get_eq_notFound_iff.mpr hn] at h
  cases h

theorem required_of_get {r : Registry} {n : String} {d : Definition} (h : r.get n = .ok d) :
    r.required n = d.rule.requires := by
  unfold required
  rw [h]

theorem mem_names_of_required {r : Registry} {n : String} (h : r.required n ≠ []) :
    n ∈ r.names := by
  unfold required at h
  cases hg : r.get n with
  | ok d => exact mem_names_of_get hg
  | error e =>
    rw [hg] at h
    exact absurd rfl h

theorem get_addSynthesized_self (r : Registry) (name : String)
    (outcome : Except GroupError Definition) :
    (r.addSynthesized name outcome).get name = outcome.mapError .failed := by
  have hstored : (r.addSynthesized name outcome).synthesized.get? name = some outcome :=
    (Table.get?_insert r.synthesized name outcome name).trans (if_pos rfl)
  unfold get
  rw [hstored]

theorem get_addSynthesized_of_ne {r : Registry} {name : String}
    {outcome : Except GroupError Definition} {n : String} (h : n ≠ name) :
    (r.addSynthesized name outcome).get n = r.get n := by
  have hstored : (r.addSynthesized name outcome).synthesized.get? n = r.synthesized.get? n :=
    (Table.get?_insert r.synthesized name outcome n).trans (if_neg h)
  unfold get
  rw [hstored]
  rfl

/-! ## Names of definitions -/

/-- Definitions are found under the names they carry. -/
def Named (r : Registry) : Prop := ∀ n d, r.get n = .ok d → d.name = n

theorem named_of_declared {r : Registry} (hs : r.synthesized = Table.empty)
    (hd : ∀ n d, r.declared? n = some d → d.name = n) : r.Named := by
  intro n d hget
  rcases get_eq_ok_iff.mp hget with hstored | ⟨-, hdeclared⟩
  · rw [hs] at hstored
    cases hstored
  · exact hd n d hdeclared

theorem named_ofRules (rules : Table Rule) : (ofRules rules).Named :=
  named_of_declared rfl fun _ _ => name_of_declared?_ofRules

theorem Named.addSynthesized {r : Registry} (h : r.Named) {name : String}
    {outcome : Except GroupError Definition} (named : ∀ d, outcome = .ok d → d.name = name) :
    (r.addSynthesized name outcome).Named := by
  intro n d hd
  by_cases hn : n = name
  · subst hn
    rw [get_addSynthesized_self] at hd
    cases outcome with
    | error e => cases hd
    | ok e =>
      cases hd
      exact named d rfl
  · rw [get_addSynthesized_of_ne hn] at hd
    exact h n d hd

theorem Built.named {r : Registry} (h : r.Built) : r.Named := by
  induction h with
  | ofRules rules => exact named_ofRules rules
  | addSynthesized _ named ih => exact ih.addSynthesized named

/-! ## The walk -/

section Walk

variable {r : Registry}

/-- Takes up a required name: visits it, unless it was seen. -/
def follow (r : Registry) (bound : Nat) (seen : List Definition) (n : String) :
    Except LookupError (List Definition) :=
  if isSeen seen n then pure seen else r.visit bound seen n

theorem isSeen_iff {seen : List Definition} {n : String} :
    isSeen seen n = true ↔ n ∈ seen.map Definition.name := by
  simp [isSeen]

theorem follow_of_mem {bound : Nat} {seen : List Definition} {n : String}
    (h : n ∈ seen.map Definition.name) : r.follow bound seen n = .ok seen :=
  if_pos (isSeen_iff.mpr h)

theorem follow_of_not_mem {bound : Nat} {seen : List Definition} {n : String}
    (h : n ∉ seen.map Definition.name) : r.follow (bound + 1) seen n = (do
      let d ← r.get n
      d.rule.requires.foldlM (r.follow bound) (seen ++ [d])) :=
  if_neg fun hs => h (isSeen_iff.mp hs)

theorem map_name_of_mapM (h : r.Named) {ns : List String} {ds : List Definition}
    (hds : ns.mapM r.get = .ok ds) : ds.map Definition.name = ns := by
  have hnames := map_eq_of_mapM_ok (p := id) (h) hds
  rwa [List.map_id] at hnames

/-- Names that are taken up one after the other are followed as a walk in depth follows
them; what is met for the first time gets its definition, and the first name without
one fails. Each visit leaves one name less that could be visited below it, so that
the bound is never reached. -/
theorem foldlM_follow (h : r.Named) {seen todo new : List String}
    (hw : DepthFirst r.required seen todo new) {ds : List Definition}
    (hds : ds.map Definition.name = seen) {bound : Nat} (hb : unmetCount r.names seen < bound) :
    todo.foldlM (r.follow bound) ds = (new.mapM r.get).map (ds ++ ·) := by
  induction hw generalizing ds bound with
  | done => simp [Except.map, pure, Except.pure]
  | skip hn _ ih =>
    rw [List.foldlM_cons, follow_of_mem (hds ▸ hn)]
    exact ih hds hb
  | @visit seen todo below new n hn hdown hrest ihDown ihRest =>
    cases bound with
    | zero => exact absurd hb (Nat.not_lt_zero _)
    | succ bound =>
      rw [List.foldlM_cons, follow_of_not_mem (hds ▸ hn), List.cons_append, List.mapM_cons,
        List.mapM_append]
      cases hd : r.get n with
      | error e => rfl
      | ok d =>
        have hlt : unmetCount r.names (seen ++ [n]) < bound :=
          Nat.lt_of_lt_of_le (unmetCount_append_lt (mem_names_of_get hd) hn
            (List.mem_singleton_self n)) (Nat.le_of_lt_succ hb)
        have hle : unmetCount r.names (seen ++ n :: below) < bound + 1 :=
          Nat.lt_of_le_of_lt (unmetCount_append_le _ _ _) hb
        have hname : (ds ++ [d]).map Definition.name = seen ++ [n] := by
          rw [List.map_append, hds, List.map_singleton, h n d hd]
        have hbelow := ihDown hname hlt
        rw [required_of_get hd] at hbelow
        show (d.rule.requires.foldlM (r.follow bound) (ds ++ [d]) >>=
          todo.foldlM (r.follow (bound + 1))) = _
        rw [hbelow]
        cases hbs : below.mapM r.get with
        | error e => rfl
        | ok bs =>
          have hnames : (ds ++ [d] ++ bs).map Definition.name = seen ++ n :: below := by
            rw [List.map_append, hname, map_name_of_mapM h hbs, List.append_assoc,
              List.singleton_append]
          show todo.foldlM (r.follow (bound + 1)) (ds ++ [d] ++ bs) = _
          rw [ihRest hnames hle]
          cases new.mapM r.get with
          | error e => rfl
          | ok rest => simp [bind, Except.bind, pure, Except.pure, Except.map]

/-- A root is resolved along its preorder, whatever the bound, if it is more than the
number of names. -/
theorem exists_preorder_visit (h : r.Named) (root : String) :
    ∃ order, Preorder r.required root order ∧
      ∀ bound, r.names.length < bound → r.visit bound [] root = order.mapM r.get := by
  have hends : ∃ order, DepthFirst r.required [] [root] order :=
    exists_depthFirst (fun _ => mem_names_of_required) [] [root]
  obtain ⟨order, hw⟩ := hends
  refine ⟨order, hw.preorder, ?_⟩
  intro bound hb
  have hcount := Nat.lt_of_le_of_lt (unmetCount_le_length r.names []) hb
  have hroot : [root].foldlM (r.follow bound) [] = r.visit bound [] root := by
    rw [List.foldlM_cons]
    exact bind_pure (r.visit bound [] root)
  rw [← hroot, foldlM_follow h hw rfl hcount]
  cases order.mapM r.get <;> rfl

theorem length_names_lt_bound (r : Registry) : r.names.length < r.longestChain + 1 := by
  have hle : (r.names.length + 1) * 1 ≤ (r.names.length + 1) * (r.names.length + 2) :=
    Nat.mul_le_mul_left _ (by omega)
  unfold longestChain
  omega

/-- A root is resolved along its preorder. -/
theorem exists_preorder_resolve (h : r.Named) (root : String) :
    ∃ order, Preorder r.required root order ∧ r.resolve root = order.mapM r.get := by
  obtain ⟨order, ho, hvisit⟩ := exists_preorder_visit h root
  exact ⟨order, ho, hvisit _ (length_names_lt_bound r)⟩

theorem exists_resolve_iff (h : r.Named) {root : String} :
    (∃ ds, r.resolve root = .ok ds) ↔ ∀ n, r.Needs root n → ∃ d, r.get n = .ok d := by
  obtain ⟨order, ho, hresolve⟩ := exists_preorder_resolve h root
  rw [hresolve, mapM_ok_iff]
  exact forall_congr' fun n => imp_congr_left ho.mem_iff

/-- A failure is that of a name the root needs. -/
theorem exists_of_resolve_error (h : r.Named) {root : String} {e : LookupError}
    (he : r.resolve root = .error e) : ∃ n, r.Needs root n ∧ r.get n = .error e := by
  obtain ⟨order, ho, hresolve⟩ := exists_preorder_resolve h root
  rw [hresolve] at he
  obtain ⟨before, n, after, rfl, -, hn⟩ := exists_of_mapM_error he
  exact ⟨n, ho.mem_iff.mp (List.mem_append_right before List.mem_cons_self), hn⟩

/-- Definitions of a preorder are all that the root needs. -/
theorem resolves_of_mapM (h : r.Named) {root : String} {order : List String}
    (ho : Preorder r.required root order) {ds : List Definition}
    (hds : order.mapM r.get = .ok ds) : r.Resolves root ds := by
  have hnames : ds.map Definition.name = order := map_name_of_mapM h hds
  have hstored : ∀ d ∈ ds, r.get d.name = .ok d := by
    intro d hd
    obtain ⟨n, -, hn⟩ := exists_of_mem_mapM hds hd
    rwa [h n d hn]
  rw [← hnames] at ho
  refine ⟨ho, hstored, ?_, ho.nodup, fun n => ho.mem_iff, ?_⟩
  · cases ds with
    | nil => cases ho.head
    | cons d rest =>
      refine ⟨d, rest, rfl, ?_⟩
      have hroot : d.name = root := Option.some.inj ho.head
      rw [← hroot]
      exact hstored d List.mem_cons_self
  · rintro before d after rfl hb
    have hsplit : (before ++ d :: after).map Definition.name =
        before.map Definition.name ++ d.name :: after.map Definition.name := by
      rw [List.map_append, List.map_cons]
    obtain ⟨n, hn, hd⟩ := ho.exists_before hsplit (by simpa using hb)
    obtain ⟨p, hp, rfl⟩ := List.mem_map.mp hn
    rw [required_of_get (hstored p (List.mem_append_left _ hp))] at hd
    exact ⟨p, hp, hd⟩

end Walk

theorem prefix_of_foldlM_follow {r : Registry} {bound : Nat}
    (hvisit : ∀ {seen n ds}, r.visit bound seen n = .ok ds → seen <+: ds)
    {seen ds : List Definition} {ns : List String}
    (h : ns.foldlM (r.follow bound) seen = .ok ds) : seen <+: ds := by
  have hstep : ∀ met n more, seen <+: met → r.follow bound met n = .ok more → seen <+: more := by
    intro met n more hmet hmore
    unfold follow at hmore
    split at hmore
    · cases hmore
      exact hmet
    · exact hmet.trans (hvisit hmore)
  exact of_foldlM_ok hstep List.prefix_rfl h

/-- A visit adds to what was seen. -/
theorem prefix_of_visit {r : Registry} {bound : Nat} {seen ds : List Definition} {n : String}
    (h : r.visit bound seen n = .ok ds) : seen <+: ds := by
  induction bound generalizing seen ds n with
  | zero =>
    cases h
    exact List.prefix_rfl
  | succ bound ih =>
    obtain ⟨d, -, hrest⟩ := bind_ok_iff.mp h
    exact (List.prefix_append seen [d]).trans (prefix_of_foldlM_follow ih hrest)

/-- What is resolved begins with the root, in any registry. -/
theorem exists_of_resolve_ok {r : Registry} {root : String} {ds : List Definition}
    (h : r.resolve root = .ok ds) : ∃ d rest, r.get root = .ok d ∧ ds = d :: rest := by
  obtain ⟨d, hd, hrest⟩ := bind_ok_iff.mp h
  obtain ⟨rest, rfl⟩ := prefix_of_foldlM_follow prefix_of_visit hrest
  exact ⟨d, rest, hd, rfl⟩

/-! ## Resolution -/

/-- Resolving a root of any registry, with cycles or not: a larger bound on the depth makes
no difference; all is well exactly if every name that is needed has a definition; then
the result is what the root needs, in preorder; otherwise the failure is that of the
first name of the preorder without a definition. -/
theorem resolve_outcome {r : Registry} (h : r.Built) (root : String) :
    (∀ bound, r.names.length < bound → r.visit bound [] root = r.resolve root) ∧
    ((∃ ds, r.resolve root = .ok ds) ↔ ∀ n, r.Needs root n → ∃ d, r.get n = .ok d) ∧
    (∀ ds, r.resolve root = .ok ds → r.Resolves root ds) ∧
    ∀ e, r.resolve root = .error e → ∃ before n after,
      Preorder r.required root (before ++ n :: after) ∧
        (∀ m ∈ before, ∃ d, r.get m = .ok d) ∧ r.get n = .error e := by
  obtain ⟨order, ho, hvisit⟩ := exists_preorder_visit h.named root
  have hresolve : r.resolve root = order.mapM r.get := hvisit _ (length_names_lt_bound r)
  rw [hresolve]
  refine ⟨hvisit, ?_, fun ds hds => resolves_of_mapM h.named ho hds, ?_⟩
  · rw [mapM_ok_iff]
    exact forall_congr' fun n => imp_congr_left ho.mem_iff
  · intro e he
    obtain ⟨before, n, after, rfl, hbefore, hn⟩ := exists_of_mapM_error he
    exact ⟨before, n, after, ho, hbefore, hn⟩

/-- Trees of nodes, which are trees again. -/
def treeRegistry : Registry := (ofRules ⟨[("tree", ⟨"[* node]", ["node"], none, none⟩),
  ("node", ⟨"tree / leaf", ["tree", "leaf"], none, none⟩)], by decide⟩).addSynthesized "leaf"
    (.ok ⟨"leaf", "uint", ["leaf"], none, none⟩)

/-- A cycle is walked once. -/
theorem treeRegistry_resolved : treeRegistry.Built ∧ ∃ ds, treeRegistry.resolve "tree" = .ok ds ∧
    ds.map Definition.name = ["tree", "node", "leaf"] ∧ treeRegistry.Resolves "tree" ds := by
  have hbuilt : treeRegistry.Built := .addSynthesized (.ofRules _) (by rintro _ ⟨⟩; rfl)
  have hresolve : treeRegistry.resolve "tree" = .ok _ := rfl
  exact ⟨hbuilt, _, hresolve, rfl, (resolve_outcome hbuilt "tree").2.2.1 _ hresolve⟩

end SignedDocs.Cddl.Registry
