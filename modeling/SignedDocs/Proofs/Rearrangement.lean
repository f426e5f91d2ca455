import Mathlib.Data.List.Nodup
import SignedDocs.Json.Basic
import SignedDocs.Proofs.CodecLaws
import SignedDocs.Proofs.Replacement

/-!
Rearrangements: values that differ in the order of keys only.

* `Table.Agree`: tables of the same keys with related values. The order of the keys is free.
* `Shape`: which objects of a value may have their keys in another order.
* `Shape.Rearranged`: the same value up to the order of these keys.
* `Shape.specification`: sections and whatever is declared under names; all other parts of
  a specification, such as records, are fixed.
-/

namespace SignedDocs

universe u v

/-! ## Tables that agree -/

namespace Table

section

variable {α : Type u} {β : Type v} {R : String → α → β → Prop} {s : Table α} {t : Table β}

/-- The same keys, with related values. -/
structure Agree (R : String → α → β → Prop) (s : Table α) (t : Table β) : Prop where
  keys : ∀ k, k ∈ s.keys ↔ k ∈ t.keys
  values : ∀ k a b, s.get? k = some a → t.get? k = some b → R k a b

theorem Agree.exists_right (h : s.Agree R t) {k : String} {a : α} (ha : s.get? k = some a) :
    ∃ b, t.get? k = some b ∧ R k a b := by
  obtain ⟨b, hb⟩ := Table.mem_keys_iff.mp ((h.keys k).mp (Table.mem_keys_iff.mpr ⟨a, ha⟩))
  exact ⟨b, hb, h.values k a b ha hb⟩

theorem Agree.swap (h : s.Agree R t) : t.Agree (fun k b a => R k a b) s :=
  ⟨fun k => (h.keys k).symm, fun k b a hb ha => h.values k a b ha hb⟩

theorem Agree.exists_left (h : s.Agree R t) {k : String} {b : β} (hb : t.get? k = some b) :
    ∃ a, s.get? k = some a ∧ R k a b := h.swap.exists_right hb

theorem Agree.get?_eq_none (h : s.Agree R t) {k : String} (hk : s.get? k = none) :
    t.get? k = none := by
  rw [get?_eq_none_iff] at hk ⊢
  exact fun hmem => hk ((h.keys k).mpr hmem)

/-- A key is in none of two tables that agree, or in both. -/
theorem Agree.cases (h : s.Agree R t) (k : String) :
    s.get? k = none ∧ t.get? k = none ∨
      ∃ a b, s.get? k = some a ∧ t.get? k = some b ∧ R k a b := by
  cases ha : s.get? k with
  | none => exact Or.inl ⟨rfl, h.get?_eq_none ha⟩
  | some a =>
    obtain ⟨b, hb, hab⟩ := h.exists_right ha
    exact Or.inr ⟨a, b, rfl, hb, hab⟩

theorem Agree.keys_perm (h : s.Agree R t) : s.keys.Perm t.keys :=
  (List.perm_ext_iff_of_nodup s.keys_nodup t.keys_nodup).mpr h.keys

end

section

variable {α β : Type} {R : String → α → α → Prop} {s t : Table α}

theorem agree_eq_iff : s.Agree (fun _ => Eq) t ↔ ∀ k, s.get? k = t.get? k := by
  constructor
  · intro h k
    rcases h.cases k with ⟨hs, ht⟩ | ⟨a, b, hs, ht, rfl⟩
    · rw [hs, ht]
    · rw [hs, ht]
  · intro h
    refine ⟨?_, ?_⟩
    · intro k
      rw [Table.mem_keys_iff, Table.mem_keys_iff, h k]
    · intro k a b ha hb
      rw [h k, hb] at ha
      cases ha
      rfl

/-- The entries of tables with equal values, too, differ in their order only. -/
theorem Agree.entries_perm (h : s.Agree (fun _ => Eq) t) : s.entries.Perm t.entries := by
  have hnodup : ∀ u : Table α, u.entries.Nodup := fun u => u.keys_nodup.of_map _
  refine (List.perm_ext_iff_of_nodup (hnodup s) (hnodup t)).mpr ?_
  rintro ⟨k, a⟩
  rw [← get?_eq_some_iff, ← get?_eq_some_iff, agree_eq_iff.mp h k]

theorem Agree.symm (h : s.Agree (fun _ => Eq) t) : t.Agree (fun _ => Eq) s :=
  ⟨h.swap.keys, fun k b a hb ha => (h.values k a b ha hb).symm⟩

theorem Agree.refl (hR : ∀ k a, R k a a) (s : Table α) : s.Agree R s := by
  refine ⟨fun _ => Iff.rfl, ?_⟩
  intro k a b ha hb
  rw [ha] at hb
  cases hb
  exact hR k a

theorem Agree.filterMap {S : String → β → β → Prop} {f g : String → α → Option β}
    (h : s.Agree R t) (hfg : ∀ k a b, s.get? k = some a → t.get? k = some b →
      ∃ x y, f k a = some x ∧ g k b = some y ∧ S k x y) :
    (s.filterMap f).Agree S (t.filterMap g) := by
  refine ⟨?_, ?_⟩
  · intro k
    rw [Table.mem_keys_iff, Table.mem_keys_iff, get?_filterMap, get?_filterMap]
    rcases h.cases k with ⟨hs, ht⟩ | ⟨a, b, hs, ht, -⟩
    · rw [hs, ht]
      exact Iff.rfl
    · obtain ⟨x, y, hx, hy, -⟩ := hfg k a b hs ht
      rw [hs, ht, Option.bind_some, Option.bind_some, hx, hy]
      exact ⟨fun _ => ⟨y, rfl⟩, fun _ => ⟨x, rfl⟩⟩
  · intro k x y hx hy
    rw [get?_filterMap, Option.bind_eq_some_iff] at hx hy
    obtain ⟨a, ha, hx⟩ := hx
    obtain ⟨b, hb, hy⟩ := hy
    obtain ⟨x', y', hx', hy', hxy⟩ := hfg k a b ha hb
    rw [hx] at hx'
    rw [hy] at hy'
    cases hx'
    cases hy'
    exact hxy

theorem Agree.mapValues {S : String → β → β → Prop} {f g : String → α → β} (h : s.Agree R t)
    (hfg : ∀ k a b, R k a b → S k (f k a) (g k b)) : (s.mapValues f).Agree S (t.mapValues g) := by
  refine ⟨?_, ?_⟩
  · intro k
    rw [keys_mapValues, keys_mapValues, h.keys k]
  · intro k x y hx hy
    rw [get?_mapValues, Option.map_eq_some_iff] at hx hy
    obtain ⟨a, ha, rfl⟩ := hx
    obtain ⟨b, hb, rfl⟩ := hy
    exact hfg k a b (h.values k a b ha hb)

/-! ## Removal -/

/-- Wherever the last entry moves, the entries of other keys are all kept. -/
theorem mem_swapOut_of_ne {k : String} {es : List (String × α)} {e : String × α} (he : e ∈ es)
    (hk : e.1 ≠ k) : e ∈ swapOut k es := by
  unfold swapOut
  cases hlast : es.getLast? with
  | none =>
    rw [List.getLast?_eq_none_iff.mp hlast] at he
    cases he
  | some last =>
    obtain ⟨init, rfl⟩ := List.getLast?_eq_some_iff.mp hlast
    simp only [List.dropLast_concat]
    rw [List.mem_append, List.mem_singleton] at he
    by_cases hkLast : last.1 = k
    · rw [if_pos hkLast]
      rcases he with he | rfl
      · exact he
      · exact absurd hkLast hk
    · rw [if_neg hkLast]
      by_cases hmem : k ∈ (init ++ [last]).map Prod.fst
      · rw [if_pos hmem, List.mem_map]
        rcases he with he | rfl
        · exact ⟨e, he, if_neg hk⟩
        · obtain ⟨x, hx, hxk⟩ := List.mem_map.mp hmem
          rcases List.mem_append.mp hx with hx | hx
          · exact ⟨x, hx, if_pos hxk⟩
          · rw [List.mem_singleton.mp hx] at hxk
            exact absurd hxk hkLast
      · rw [if_neg hmem]
        exact List.mem_append.mpr (he.imp_right List.mem_singleton.mpr)

theorem get?_swapErase_of_ne {t : Table α} {k l : String} (h : l ≠ k) :
    (t.swapErase k).get? l = t.get? l := by
  apply Option.ext
  intro a
  rw [get?_eq_some_iff, get?_eq_some_iff]
  constructor
  · intro ha
    exact (of_mem_swapOut t.keys_nodup ha).1
  · intro ha
    exact mem_swapOut_of_ne ha h

end

end Table

/-! ## Shapes -/

/-- Which objects of a value may have their keys in another order: none, or the value itself
with those of its parts. -/
inductive Shape where
  | fixed
  | object (part : String → Shape)

namespace Shape

/-- The same value, up to the order of the keys of some objects. -/
inductive Rearranged : Shape → Json → Json → Prop where
  | same {shape : Shape} {v : Json} : Rearranged shape v v
  | object {part : String → Shape} {v w : Json} {s t : Table Json} (left : v.fields? = some s)
      (right : w.fields? = some t) (keys : s.keys.Perm t.keys)
      (parts : ∀ k a b, s.get? k = some a → t.get? k = some b → Rearranged (part k) a b) :
      Rearranged (Shape.object part) v w

variable {part : String → Shape} {v w : Json}

theorem Rearranged.eq_of_fixed (h : fixed.Rearranged v w) : v = w := by
  cases h
  rfl

theorem Rearranged.symm {shape : Shape} (h : shape.Rearranged v w) :
    shape.Rearranged w v := by
  induction h with
  | same => exact .same
  | object left right keys _ ih =>
    exact .object right left keys.symm fun k b a hb ha => ih k a b ha hb

/-- Both values are objects with parts that are rearranged, or they are one value without
keys. -/
theorem Rearranged.fields (h : (Shape.object part).Rearranged v w) :
    v.fields? = none ∧ v = w ∨ ∃ s t, v.fields? = some s ∧ w.fields? = some t ∧
      s.Agree (fun k => (part k).Rearranged) t := by
  cases h with
  | same =>
    cases hv : v.fields? with
    | none => exact Or.inl ⟨rfl, rfl⟩
    | some s => exact Or.inr ⟨s, s, rfl, rfl, Table.Agree.refl (fun _ _ => .same) s⟩
  | object left right keys parts =>
    exact Or.inr ⟨_, _, left, right, ⟨fun _ => keys.mem_iff, parts⟩⟩

/-! ## Making rearrangements -/

theorem Rearranged.trans {shape : Shape} {u v w : Json} (h : shape.Rearranged u v)
    (h' : shape.Rearranged v w) : shape.Rearranged u w := by
  induction h generalizing w with
  | same => exact h'
  | @object part u v s t left right keys parts ih =>
    cases h' with
    | same => exact .object left right keys parts
    | @object _ _ _ t' r left' right' keys' parts' =>
      rw [right] at left'
      cases left'
      refine .object left right' (keys.trans keys') ?_
      intro k a c ha hc
      have hmem : k ∈ t.keys := keys.mem_iff.mp (Table.mem_keys_iff.mpr ⟨a, ha⟩)
      obtain ⟨b, hb⟩ := Table.mem_keys_iff.mp hmem
      exact ih k a b ha hb (parts' k b c hb hc)

/-- An object with its entries in any other order. -/
theorem rearranged_of_perm {es fs : List (String × Json)} (h : es.Perm fs)
    (hd : (es.map Prod.fst).Nodup) :
    (Shape.object part).Rearranged (.object es) (.object fs) := by
  have hd' : (fs.map Prod.fst).Nodup := (h.map _).nodup_iff.mp hd
  have hes := Table.entries_ofList hd
  have hfs := Table.entries_ofList hd'
  refine .object rfl rfl ?_ ?_
  · unfold Table.keys
    rw [hes, hfs]
    exact h.map _
  · intro k a b ha hb
    have hmem : (k, a) ∈ (Table.ofList fs).entries := by
      rw [hfs]
      rw [Table.get?_eq_some_iff, hes] at ha
      exact h.mem_iff.mp ha
    rw [Table.get?_eq_some_iff.mpr hmem] at hb
    cases hb
    exact .same

/-- One part rearranged. -/
theorem Rearranged.replace {s : Table Json} {k : String} {a b : Json} (hv : v.fields? = some s)
    (ha : s.get? k = some a) (h : (part k).Rearranged a b) :
    (Shape.object part).Rearranged v (v.replace [k] b) := by
  refine .object hv (Json.fields?_replace_of_fields hv k [] b) ?_ ?_
  · rw [Table.keys_modify]
  · intro l x y hx hy
    by_cases hl : l = k
    · subst hl
      rw [Table.get?_modify_self ha] at hy
      rw [ha] at hx
      cases hx
      cases hy
      exact h
    · rw [Table.get?_modify_of_ne hl, hx] at hy
      cases hy
      exact .same

/-! ## The shape of specifications -/

/-- Values under names. -/
def named (value : Shape) : Shape := .object fun _ => value

/-- A document: its headers and its fields may be declared in any order. -/
def document : Shape := .object fun
  | "headers" => named fixed
  | "metadata" => named fixed
  | _ => fixed

def headerSection : Shape := .object fun
  | "headerFormats" => named fixed
  | "headers" => named fixed
  | "signature_headers" => named fixed
  | _ => fixed

def metadataSection : Shape := .object fun
  | "headers" => named fixed
  | "formats" => named fixed
  | _ => fixed

/-- A specification: sections, and what is declared under names in them, in any order. -/
def specification : Shape := .object fun
  | "authors" => named fixed
  | "base_types" => named fixed
  | "cddlDefinitions" => named fixed
  | "contentTypes" => named fixed
  | "encodingTypes" => named fixed
  | "docClusters" => named fixed
  | "documentationLinks" => named fixed
  | "linkAKA" => named fixed
  | "cose" => headerSection
  | "metadata" => metadataSection
  | "docs" => named document
  | _ => fixed

end Shape

end SignedDocs
