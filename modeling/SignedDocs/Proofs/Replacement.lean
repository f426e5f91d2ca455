import SignedDocs.FieldSet
import SignedDocs.Json.Basic

/-!
Replacing one value: what stands where some keys lead, in tables and in JSON objects.

* `Table.modify`, `Table.without`: one value changed, or its entry left out; all other entries
  stay as they are and where they are.
* `Table.revise`: both at once. `exists_entries_modify`: a table is split by the entry.
* `Json.under?`, `Json.replace`: the value at the end of some keys. The fields of an object
  are modified at the first key (`fields?_replace`).
-/

namespace SignedDocs

namespace Table

variable {α β : Type}

/-! ## Changing one entry -/

/-- The table with the value of a key changed, if the key is there. -/
def modify (t : Table α) (k : String) (f : α → α) : Table α :=
  t.mapValues fun n a => if n = k then f a else a

/-- The table with the value of a key changed, or left out. -/
def revise (t : Table α) (k : String) (f : α → Option α) : Table α :=
  t.filterMap fun n a => if n = k then f a else some a

/-- The table without a key; the other entries stay in their order. -/
def without (t : Table α) (k : String) : Table α := t.revise k fun _ => none

theorem keys_modify (t : Table α) (k : String) (f : α → α) : (t.modify k f).keys = t.keys :=
  map_fst_mapEntries (fun n a => if n = k then f a else a) t.entries

theorem get?_modify_self {t : Table α} {k : String} {a : α} (h : t.get? k = some a) (f : α → α) :
    (t.modify k f).get? k = some (f a) := by
  unfold modify
  rw [get?_mapValues, h]
  simp

theorem get?_modify_of_ne {t : Table α} {k l : String} (h : l ≠ k) (f : α → α) :
    (t.modify k f).get? l = t.get? l := by
  unfold modify
  rw [get?_mapValues]
  simp [h]

/-- The entry of a key has a place of its own; no other entry has the key. -/
theorem exists_entries_eq {t : Table α} {k : String} {a : α} (h : t.get? k = some a) :
    ∃ before after, t.entries = before ++ (k, a) :: after ∧
      (∀ e ∈ before, e.1 ≠ k) ∧ ∀ e ∈ after, e.1 ≠ k := by
  obtain ⟨before, after, hsplit⟩ := List.append_of_mem (get?_eq_some_iff.mp h)
  have hnodup := t.keys_nodup
  rw [hsplit, List.map_append, List.map_cons, List.nodup_append] at hnodup
  obtain ⟨-, hcons, hdisjoint⟩ := hnodup
  rw [List.nodup_cons] at hcons
  refine ⟨before, after, hsplit, ?_, ?_⟩
  · intro e he
    exact hdisjoint e.1 (List.mem_map_of_mem he) k List.mem_cons_self
  · intro e he hk
    have hmem : e.1 ∈ after.map Prod.fst := List.mem_map_of_mem he
    exact hcons.1 (hk ▸ hmem)

/-- Entries with other keys stay. -/
theorem map_modify_eq_self {es : List (String × α)} {k : String} (h : ∀ e ∈ es, e.1 ≠ k)
    (f : α → α) : (es.map fun e => (e.1, if e.1 = k then f e.2 else e.2)) = es := by
  refine List.map_congr_left (fun e he => ?_) |>.trans (List.map_id' es)
  simp [h e he]

/-- Whatever the new value is, it stands between the same entries. -/
theorem exists_entries_modify {t : Table α} {k : String} {a : α} (h : t.get? k = some a) :
    ∃ before after, ∀ f : α → α, (t.modify k f).entries = before ++ (k, f a) :: after := by
  obtain ⟨before, after, hsplit, hbefore, hafter⟩ := exists_entries_eq h
  refine ⟨before, after, ?_⟩
  intro f
  show (t.entries.map fun e => (e.1, if e.1 = k then f e.2 else e.2)) = _
  rw [hsplit, List.map_append, List.map_cons, map_modify_eq_self hbefore, map_modify_eq_self hafter]
  simp

/-- What is made of the entries depends on the new value by what is made of that. -/
theorem filterMap_modify_congr {t : Table α} {k : String} {a : α} (h : t.get? k = some a)
    {make : String → α → Option β} {f g : α → α} (hfg : make k (f a) = make k (g a)) :
    (t.modify k f).filterMap make = (t.modify k g).filterMap make := by
  obtain ⟨before, after, hsplit⟩ := exists_entries_modify h
  refine Table.ext ?_
  show (t.modify k f).entries.filterMap _ = (t.modify k g).entries.filterMap _
  rw [hsplit f, hsplit g, List.filterMap_append, List.filterMap_append, List.filterMap_cons,
    List.filterMap_cons, hfg]

theorem revise_filterMap (t : Table α) (make : String → α → Option β) (k : String)
    (f : β → Option β) : (t.filterMap make).revise k f =
      t.filterMap fun n a => (make n a).bind fun b => if n = k then f b else some b := by
  refine Table.ext ?_
  show (t.entries.filterMap fun e => (make e.1 e.2).map fun b => (e.1, b)).filterMap
    (fun e => (if e.1 = k then f e.2 else some e.2).map fun b => (e.1, b)) = _
  rw [List.filterMap_filterMap]
  show _ = t.entries.filterMap _
  congr 1
  funext e
  show _ = ((make e.1 e.2).bind fun b => if e.1 = k then f b else some b).map _
  cases make e.1 e.2 <;> rfl

/-! ## Insertion and removal around a changed value -/

theorem put_mapEntries (f : String → α → β) (k : String) (v : α) (es : List (String × α)) :
    put k (f k v) (es.map fun e => (e.1, f e.1 e.2)) =
      (put k v es).map fun e => (e.1, f e.1 e.2) := by
  induction es with
  | nil => rfl
  | cons e es ih =>
    rw [List.map_cons]
    unfold put
    by_cases h : e.1 = k
    · simp [h]
    · simp [h, ih]

theorem extend_mapValues (f : String → α → β) (t : Table α) (es : List (String × α)) :
    (t.mapValues f).extend (es.map fun e => (e.1, f e.1 e.2)) = (t.extend es).mapValues f := by
  induction es generalizing t with
  | nil => rfl
  | cons e es ih =>
    have hstep : (t.mapValues f).insert e.1 (f e.1 e.2) = (t.insert e.1 e.2).mapValues f :=
      Table.ext (put_mapEntries f e.1 e.2 t.entries)
    show ((t.mapValues f).insert e.1 (f e.1 e.2)).extend (es.map fun e => (e.1, f e.1 e.2)) = _
    rw [hstep, ih]
    rfl

/-- Changed values can be put in a table afterwards. -/
theorem ofList_mapEntries (f : String → α → β) (es : List (String × α)) :
    ofList (es.map fun e => (e.1, f e.1 e.2)) = (ofList es).mapValues f :=
  extend_mapValues f empty es

theorem swapOut_mapEntries (f : String → α → β) (k : String) (es : List (String × α)) :
    swapOut k (es.map fun e => (e.1, f e.1 e.2)) =
      (swapOut k es).map fun e => (e.1, f e.1 e.2) := by
  unfold swapOut
  rw [List.getLast?_map]
  cases es.getLast? with
  | none => rfl
  | some last =>
    simp only [Option.map_some, map_fst_mapEntries]
    split
    · rw [List.map_dropLast]
    · split
      · rw [← List.map_dropLast, List.map_map, List.map_map]
        refine List.map_congr_left fun e _ => ?_
        simp only [Function.comp]
        split <;> rfl
      · rfl

theorem swapErase_modify (t : Table α) (k l : String) (f : α → α) :
    (t.modify l f).swapErase k = (t.swapErase k).modify l f :=
  Table.ext (swapOut_mapEntries (fun n a => if n = l then f a else a) k t.entries)

/-- What is left was there before and has another key. -/
theorem of_mem_swapOut {k : String} {es : List (String × α)} (hd : (es.map Prod.fst).Nodup)
    {e : String × α} (he : e ∈ swapOut k es) : e ∈ es ∧ e.1 ≠ k := by
  unfold swapOut at he
  split at he
  · cases he
  · rename_i last hlast
    obtain ⟨init, rfl⟩ := List.getLast?_eq_some_iff.mp hlast
    rw [List.dropLast_concat] at he
    have hinit : ∀ x ∈ init, x.1 ≠ last.1 := by
      intro x hx
      rw [List.map_append, List.nodup_append] at hd
      exact hd.2.2 x.1 (List.mem_map_of_mem hx) last.1 (by simp)
    split at he
    · rename_i hk
      exact ⟨List.mem_append_left _ he, hk ▸ hinit e he⟩
    · rename_i hk
      split at he
      · obtain ⟨x, hx, rfl⟩ := List.mem_map.mp he
        by_cases hxk : x.1 = k
        · rw [if_pos hxk]
          exact ⟨by simp, hk⟩
        · rw [if_neg hxk]
          exact ⟨List.mem_append_left _ hx, hxk⟩
      · rename_i hmem
        refine ⟨he, ?_⟩
        rintro rfl
        exact hmem (List.mem_map_of_mem he)

theorem of_mem_keys_swapErase {t : Table α} {k l : String} (h : l ∈ (t.swapErase k).keys) :
    l ∈ t.keys ∧ l ≠ k := by
  obtain ⟨e, he, rfl⟩ := List.mem_map.mp h
  obtain ⟨hmem, hne⟩ := of_mem_swapOut t.keys_nodup he
  exact ⟨mem_keys_of_mem hmem, hne⟩

theorem modify_eq_self {t : Table α} {k : String} (h : k ∉ t.keys) (f : α → α) :
    t.modify k f = t := by
  refine Table.ext (map_modify_eq_self ?_ f)
  rintro e he rfl
  exact h (mem_keys_of_mem he)

/-! ## Tables without an entry -/

theorem revise_some (t : Table α) (k : String) (f : α → α) :
    t.revise k (fun a => some (f a)) = t.modify k f := by
  refine Table.ext ?_
  show t.entries.filterMap (fun e => (if e.1 = k then some (f e.2) else some e.2).map fun a =>
    (e.1, a)) = t.entries.map fun e => (e.1, if e.1 = k then f e.2 else e.2)
  induction t.entries with
  | nil => rfl
  | cons e es ih => by_cases h : e.1 = k <;> simp [h, ih]

theorem entries_without (t : Table α) (k : String) :
    (t.without k).entries = t.entries.filter fun e => e.1 ≠ k := by
  show t.entries.filterMap (fun e => (if e.1 = k then none else some e.2).map fun a => (e.1, a)) = _
  induction t.entries with
  | nil => rfl
  | cons e es ih => by_cases h : e.1 = k <;> simp [h, ih]

theorem get?_without (t : Table α) (k l : String) :
    (t.without k).get? l = if l = k then none else t.get? l := by
  show (t.filterMap fun n a => if n = k then none else some a).get? l = _
  rw [get?_filterMap]
  by_cases h : l = k
  · simp [h]
  · simp [h]

theorem mapValues_filterMap {γ : Type} (t : Table α) (f : String → α → Option β)
    (g : String → β → γ) :
    (t.filterMap f).mapValues g = t.filterMap fun k a => (f k a).map (g k) := by
  refine Table.ext ?_
  show (t.entries.filterMap _).map _ = t.entries.filterMap _
  rw [List.map_filterMap]
  simp only [Option.map_map]
  rfl

theorem modify_mapValues {t : Table α} {f : String → α → β} {k : String} {g : β → β} {h : α → α}
    (hgh : ∀ a, g (f k a) = f k (h a)) : (t.mapValues f).modify k g = (t.modify k h).mapValues f := by
  refine Table.ext ?_
  show (t.entries.map _).map _ = (t.entries.map _).map _
  rw [List.map_map, List.map_map]
  refine List.map_congr_left fun e _ => ?_
  by_cases he : e.1 = k
  · subst he
    simp [hgh]
  · simp [he]

theorem without_mapValues (t : Table α) (f : String → α → β) (k : String) :
    (t.mapValues f).without k = (t.without k).mapValues f := by
  refine Table.ext ?_
  rw [entries_without]
  show (t.entries.map _).filter _ = (t.without k).entries.map _
  rw [entries_without, List.filter_map]
  rfl

theorem keys_without (t : Table α) (k : String) :
    (t.without k).keys = t.keys.filter fun n => n ≠ k := by
  unfold keys
  rw [entries_without, List.filter_map]
  rfl

end Table

/-! ## Fields without one of them -/

theorem eraseDups_filter (p : String → Bool) :
    (names : List String) → (names.filter p).eraseDups = names.eraseDups.filter p
  | [] => rfl
  | a :: rest => by
    have hrest := eraseDups_filter p (rest.filter fun b => !b == a)
    rw [List.eraseDups_cons]
    by_cases ha : p a = true
    · rw [List.filter_cons_of_pos ha, List.filter_cons_of_pos ha, List.eraseDups_cons, ← hrest,
        List.filter_filter, List.filter_filter]
      simp only [Bool.and_comm]
    · have hsame : (rest.filter fun b => !b == a).filter p = rest.filter p := by
        rw [List.filter_filter]
        refine List.filter_congr fun b _ => ?_
        by_cases hb : b = a
        · subst hb
          simp [ha]
        · simp [hb]
      rw [List.filter_cons_of_neg ha, List.filter_cons_of_neg ha, ← hrest, hsame]
termination_by names => names.length
decreasing_by
  exact Nat.lt_succ_of_le (List.length_filter_le _ _)

namespace FieldSet

variable {α : Type}

/-- The fields without one of them. -/
def without (fs : FieldSet α) (name : String) : FieldSet α :=
  { fs with fields := fs.fields.without name }

theorem without_ofTable (records : Table α) (preferred : List String) (owner : Option String)
    (name : String) : (ofTable records preferred owner).without name =
      ofTable (records.without name) preferred owner := by
  unfold without ofTable
  rw [Table.without_mapValues]

/-- The other fields keep their canonical order. -/
theorem names_without (fs : FieldSet α) (name : String) :
    (fs.without name).names = fs.names.filter fun n => n ≠ name := by
  have hpreferred : fs.preferred.filter (fs.without name).contains =
      (fs.preferred.filter fs.contains).filter fun n => n ≠ name := by
    rw [List.filter_filter]
    refine List.filter_congr fun n _ => ?_
    rw [Bool.eq_iff_iff, contains_iff, Bool.and_eq_true, contains_iff, keys_declared, keys_declared]
    show n ∈ (fs.fields.without name).keys ↔ _
    rw [Table.keys_without, List.mem_filter, and_comm]
  unfold names
  rw [List.filter_append, ← eraseDups_filter, ← hpreferred]
  show _ ++ (fs.fields.without name).keys.filter _ = _
  rw [Table.keys_without, List.filter_filter, List.filter_filter]
  simp only [Bool.and_comm]
  rfl

end FieldSet

/-! ## Places in a value -/

namespace Json

/-- The value that some keys lead to, one after the other. -/
def under? : Json → List String → Option Json
  | v, [] => some v
  | v, k :: ks => (v.get? k).bind (under? · ks)

/-- The value with `w` where the keys lead; all else stays, and in its place. -/
def replace : Json → List String → Json → Json
  | _, [], w => w
  | .object es, k :: ks, w =>
    .object (es.map fun e => (e.1, if e.1 = k then replace e.2 ks w else e.2))
  | v, _ :: _, _ => v

theorem fields?_replace (v : Json) (k : String) (ks : List String) (w : Json) :
    (v.replace (k :: ks) w).fields? =
      v.fields?.map fun t => t.modify k fun x => x.replace ks w := by
  cases v with
  | object es =>
    have hlist := Table.ofList_mapEntries (fun n x => if n = k then replace x ks w else x) es
    show some (Table.ofList _) = some (Table.modify (Table.ofList es) k _)
    rw [hlist]
    rfl
  | _ => rfl

theorem fields?_replace_of_fields {v : Json} {t : Table Json} (h : v.fields? = some t) (k : String)
    (ks : List String) (w : Json) :
    (v.replace (k :: ks) w).fields? = some (t.modify k fun x => x.replace ks w) := by
  rw [fields?_replace, h]
  rfl

/-- Keys lead somewhere if the first one does and the others lead on from there. -/
theorem isSome_under?_cons {v : Json} {k : String} {ks : List String} :
    (v.under? (k :: ks)).isSome ↔
      ∃ t x, v.fields? = some t ∧ t.get? k = some x ∧ (x.under? ks).isSome := by
  show ((v.fields?.bind (·.get? k)).bind (under? · ks)).isSome ↔ _
  cases v.fields? with
  | none => simp
  | some t => cases h : t.get? k <;> simp [h]

end Json

end SignedDocs
