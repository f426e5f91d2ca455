import Mathlib.Data.List.Induction
import Mathlib.Data.List.Nodup
import Mathlib.Data.List.Pairwise
import SignedDocs.Proofs.Replacement

/-!
The canonical order of a set of fields.

* `Canonical`: the order said without its computation: all keys once, first the preferred ones as
  they occur first in the list of preferences, then the others as they were declared.
* `pairwise_earlier_eraseDups`: leaving out repetitions keeps the order of first occurrences.
* `Canonical.unique`: keys and preferences determine the order.
* `canonical_names`: the names of a set are in canonical order, its fields follow them, and the order
  taken for the preferences gives itself again.
-/

namespace SignedDocs

universe u

/-! ## First occurrences -/

/-- `a` occurs before `b` does; what does not occur counts as last. -/
def Earlier (xs : List String) (a b : String) : Prop := xs.idxOf a < xs.idxOf b

theorem eraseDups_concat (xs : List String) (a : String) :
    (xs ++ [a]).eraseDups = if a ∈ xs then xs.eraseDups else xs.eraseDups ++ [a] := by
  rw [List.eraseDups_append]
  by_cases h : a ∈ xs <;> simp [List.removeAll, List.eraseDups_cons, h]

/-- Each name stands where it occurs first: a name that is added at the end comes after all that
were met, and they keep their places. -/
theorem pairwise_earlier_eraseDups (xs : List String) : xs.eraseDups.Pairwise (Earlier xs) := by
  induction xs using List.reverseRecOn with
  | nil => exact .nil
  | append_singleton xs a ih =>
    have hkept : xs.eraseDups.Pairwise (Earlier (xs ++ [a])) := by
      refine ih.imp_of_mem fun {b c} hb hc hlt => ?_
      unfold Earlier
      rw [List.idxOf_append_of_mem (List.mem_eraseDups.mp hb),
        List.idxOf_append_of_mem (List.mem_eraseDups.mp hc)]
      exact hlt
    rw [eraseDups_concat]
    by_cases ha : a ∈ xs
    · rw [if_pos ha]
      exact hkept
    · rw [if_neg ha]
      refine List.pairwise_append.mpr ⟨hkept, List.pairwise_singleton _ _, ?_⟩
      intro b hb c hc
      rw [List.mem_singleton.mp hc]
      have hb' := List.mem_eraseDups.mp hb
      have hlt := List.idxOf_lt_length_of_mem hb'
      unfold Earlier
      rw [List.idxOf_append_of_mem hb', List.idxOf_append_of_notMem ha]
      omega

theorem eraseDups_of_nodup {xs : List String} (h : xs.Nodup) : xs.eraseDups = xs := by
  induction xs using List.reverseRecOn with
  | nil => rfl
  | append_singleton xs a ih =>
    rw [← List.concat_eq_append, List.nodup_concat] at h
    rw [eraseDups_concat, if_neg h.1, ih h.2]

theorem pairwise_earlier_of_nodup {xs : List String} (h : xs.Nodup) : xs.Pairwise (Earlier xs) := by
  have hself := pairwise_earlier_eraseDups xs
  rwa [eraseDups_of_nodup h] at hself

theorem nodup_of_pairwise_earlier {xs ys : List String} (h : ys.Pairwise (Earlier xs)) :
    ys.Nodup := by
  refine h.imp fun hlt heq => ?_
  rw [heq] at hlt
  exact Nat.lt_irrefl _ hlt

/-- Lists with the same members in the order of their occurrences are equal. -/
theorem eq_of_pairwise_earlier {xs ys zs : List String} (hys : ys.Pairwise (Earlier xs))
    (hzs : zs.Pairwise (Earlier xs)) (hmem : ∀ n, n ∈ ys ↔ n ∈ zs) : ys = zs := by
  have hperm : ys.Perm zs := (List.perm_ext_iff_of_nodup (nodup_of_pairwise_earlier hys)
    (nodup_of_pairwise_earlier hzs)).mpr hmem
  refine hperm.eq_of_pairwise (fun a b _ _ hab hba => ?_) hys hzs
  exact absurd hab (Nat.lt_asymm hba)

/-! ## Canonical orders -/

/-- All keys, none twice: first the preferred ones in the order of the preferences, then the
others in their own order. -/
structure Canonical (keys preferred order : List String) : Prop where
  perm : order.Perm keys
  nodup : order.Nodup
  split : ∃ listed others, order = listed ++ others ∧
    (∀ n ∈ listed, n ∈ preferred) ∧ listed.Pairwise (Earlier preferred) ∧
    (∀ n ∈ others, n ∉ preferred) ∧ others.Pairwise (Earlier keys)

theorem mem_left_iff {xs ys : List String} {p : String → Prop} (hxs : ∀ n ∈ xs, p n)
    (hys : ∀ n ∈ ys, ¬ p n) (n : String) : n ∈ xs ↔ n ∈ xs ++ ys ∧ p n := by
  rw [List.mem_append]
  constructor
  · exact fun hn => ⟨.inl hn, hxs n hn⟩
  · rintro ⟨hn, hp⟩
    exact hn.resolve_right fun hy => hys n hy hp

theorem mem_right_iff {xs ys : List String} {p : String → Prop} (hxs : ∀ n ∈ xs, p n)
    (hys : ∀ n ∈ ys, ¬ p n) (n : String) : n ∈ ys ↔ n ∈ xs ++ ys ∧ ¬ p n := by
  rw [List.mem_append]
  constructor
  · exact fun hn => ⟨.inr hn, hys n hn⟩
  · rintro ⟨hn, hp⟩
    exact hn.resolve_left fun hx => hp (hxs n hx)

/-- Keys and preferences determine the order. -/
theorem Canonical.unique {keys preferred order order' : List String}
    (h : Canonical keys preferred order) (h' : Canonical keys preferred order') :
    order = order' := by
  have hsame : ∀ n, n ∈ order ↔ n ∈ order' := fun n => h.perm.mem_iff.trans h'.perm.mem_iff.symm
  obtain ⟨listed, others, rfl, hlisted, hfirst, hothers, hrest⟩ := h.split
  obtain ⟨listed', others', rfl, hlisted', hfirst', hothers', hrest'⟩ := h'.split
  have hmemListed : ∀ n, n ∈ listed ↔ n ∈ listed' := by
    intro n
    rw [mem_left_iff hlisted hothers, mem_left_iff hlisted' hothers', hsame]
  have hmemOthers : ∀ n, n ∈ others ↔ n ∈ others' := by
    intro n
    rw [mem_right_iff hlisted hothers, mem_right_iff hlisted' hothers', hsame]
  rw [eq_of_pairwise_earlier hfirst hfirst' hmemListed,
    eq_of_pairwise_earlier hrest hrest' hmemOthers]

/-! ## Names of a set -/

namespace FieldSet

variable {α : Type u}

theorem nodup_names (fs : FieldSet α) : fs.names.Nodup := by
  refine List.nodup_append.mpr ⟨?_, fs.fields.keys_nodup.filter _, ?_⟩
  · rw [eraseDups_filter]
    exact (nodup_of_pairwise_earlier (pairwise_earlier_eraseDups fs.preferred)).filter _
  · intro a ha b hb hab
    have hlisted := (List.mem_filter.mp (List.mem_eraseDups.mp ha)).1
    have hother := (List.mem_filter.mp hb).2
    rw [← hab] at hother
    simp [hlisted] at hother

/-- The names of a set are in canonical order. -/
theorem canonical_names (fs : FieldSet α) :
    Canonical fs.declared.keys fs.preferred fs.names := by
  have hkeys : fs.declared.keys.Nodup := fs.declared.keys_nodup
  refine ⟨?_, nodup_names fs, ?_⟩
  · exact (List.perm_ext_iff_of_nodup (nodup_names fs) hkeys).mpr fun n => mem_names
  · refine ⟨_, _, rfl, ?_, ?_, ?_, ?_⟩
    · intro n hn
      exact (List.mem_filter.mp (List.mem_eraseDups.mp hn)).1
    · rw [eraseDups_filter]
      exact (pairwise_earlier_eraseDups fs.preferred).filter _
    · intro n hn
      simpa using (List.mem_filter.mp hn).2
    · rw [← keys_declared]
      exact (pairwise_earlier_of_nodup hkeys).filter _

/-- The order of a set, taken for the preferences, gives itself again. -/
theorem names_of_preferred_names (fs : FieldSet α) :
    ({ fs with preferred := fs.names } : FieldSet α).names = fs.names := by
  refine (canonical_names _).unique ⟨(canonical_names fs).perm, nodup_names fs, ?_⟩
  refine ⟨fs.names, [], (List.append_nil _).symm, fun n hn => hn, ?_, ?_, .nil⟩
  · exact pairwise_earlier_of_nodup (nodup_names fs)
  · exact fun n hn => absurd hn List.not_mem_nil

namespace Named

variable {fs : FieldSet α} (hn : fs.Named)
include hn

/-- The fields follow the names. -/
theorem map_name_all : fs.all.map Scoped.name = fs.names := by
  have hname : ∀ n ∈ fs.names, (fs.get? n).map Scoped.name = some n := by
    intro n hmem
    obtain ⟨h, hg⟩ := exists_get?_of_mem_names hmem
    rw [hg, Option.map_some, hn n h hg]
  unfold all
  rw [List.map_filterMap, List.filterMap_congr hname, List.filterMap_some]

/-- Looking the names up one by one gives the fields with their names. -/
theorem map_pair_all : (fs.all.map fun h => (h.name, h.record)) =
    fs.names.filterMap fun n => (fs.declared.get? n).map fun r => (n, r) := by
  have hpair : ∀ n, (fs.get? n).map (fun h => (h.name, h.record)) =
      (fs.declared.get? n).map fun r => (n, r) := by
    intro n
    rw [get?_declared]
    cases hg : fs.get? n with
    | none => rfl
    | some h =>
      simp only [Option.map_some]
      rw [hn n h hg]
  unfold all
  rw [List.map_filterMap]
  exact List.filterMap_congr fun n _ => hpair n

/-- Fields with their names are the declared entries, rearranged. -/
theorem perm_entries_all :
    (fs.all.map fun h => (h.name, h.record)).Perm fs.declared.entries := by
  have hnodup : (fs.all.map fun h => (h.name, h.record)).Nodup := by
    refine List.Nodup.of_map Prod.fst ?_
    rw [List.map_map]
    show (fs.all.map Scoped.name).Nodup
    rw [hn.map_name_all]
    exact nodup_names fs
  have hentries : fs.declared.entries.Nodup := .of_map Prod.fst fs.declared.keys_nodup
  refine (List.perm_ext_iff_of_nodup hnodup hentries).mpr ?_
  rintro ⟨n, r⟩
  rw [← Table.get?_eq_some_iff, List.mem_map, get?_declared_eq_some_iff]
  constructor
  · rintro ⟨h, hh, heq⟩
    cases heq
    exact ⟨h, hn.mem_all.mp hh, rfl⟩
  · rintro ⟨h, hg, rfl⟩
    refine ⟨h, FieldSet.mem_all.mpr ⟨n, hg⟩, ?_⟩
    rw [hn n h hg]

end Named

/-- Whatever records become fields and whatever names are preferred, unknown ones or repeated ones
too: the names of the set are the one canonical order; its fields follow them, alone or with their
names, and none is lost or repeated; with its own order for the preferences it keeps this order. -/
theorem canonical_order (records : Table α) (preferred : List String) (owner : Option String) :
    let fs := ofTable records preferred owner
    (∀ order, Canonical records.keys preferred order ↔ order = fs.names) ∧
    fs.all.map Scoped.name = fs.names ∧
    (∀ h ∈ fs.all, fs.get? h.name = some h) ∧
    (fs.all.map fun h => (h.name, h.record)) =
      (fs.names.filterMap fun n => (records.get? n).map fun r => (n, r)) ∧
    (fs.all.map fun h => (h.name, h.record)).Perm records.entries ∧
    (ofTable records fs.names owner).names = fs.names := by
  intro fs
  have hn : fs.Named := labelled_ofTable.named
  have hdeclared : fs.declared = records := declared_ofTable
  have hcanonical : Canonical records.keys preferred fs.names := by
    rw [← hdeclared]
    exact canonical_names fs
  refine ⟨?_, hn.map_name_all, fun h => hn.mem_all.mp, ?_, ?_, names_of_preferred_names fs⟩
  · intro order
    constructor
    · exact fun h => h.unique hcanonical
    · rintro rfl
      exact hcanonical
  · rw [hn.map_pair_all, hdeclared]
  · rw [← hdeclared]
    exact hn.perm_entries_all

/-- Unknown and repeated preferences do no harm. -/
example : (ofTable ⟨[("a", 1), ("b", 2), ("c", 3), ("d", 4)], by decide⟩ ["c", "x", "a", "c"]
    none).names = ["c", "a", "b", "d"] := by decide

end FieldSet

end SignedDocs
