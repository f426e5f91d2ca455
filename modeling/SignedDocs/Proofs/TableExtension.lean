import SignedDocs.Proofs.CanonicalOrder

/-!
Entries added to a table one after the other.

* `Table.entries_ofList`: entries whose keys differ stay as they are.
* `Table.keys_ofList`, `Table.get?_ofList_of_last`: repeated keys keep the first place and the
  last value.
* `Table.keys_extend_entries`, `Table.get?_extend_entries`: a table added to another one. The keys
  of both keep the places they had and take the values that are added.
-/

namespace SignedDocs.Table

universe u

variable {α : Type u}

/-! ## One entry -/

/-- A new key goes to the end, and any other stays in its place. -/
theorem keys_insert (t : Table α) (k : String) (v : α) :
    (t.insert k v).keys = if k ∈ t.keys then t.keys else t.keys ++ [k] :=
  map_fst_put k v t.entries

theorem mem_keys_insert {t : Table α} {k n : String} {v : α} :
    n ∈ (t.insert k v).keys ↔ n = k ∨ n ∈ t.keys := by
  rw [mem_keys_iff, mem_keys_iff, get?_insert]
  by_cases h : n = k <;> simp [h]

theorem put_of_notMem {k : String} {es : List (String × α)}
    (h : k ∉ es.map Prod.fst) (v : α) : put k v es = es ++ [(k, v)] := by
  induction es with
  | nil => rfl
  | cons e es ih =>
    rw [List.map_cons, List.mem_cons, not_or] at h
    unfold put
    rw [if_neg fun he => h.1 he.symm, ih h.2]
    rfl

/-! ## Some entries -/

theorem extend_concat (t : Table α) (es : List (String × α)) (e : String × α) :
    t.extend (es ++ [e]) = (t.extend es).insert e.1 e.2 :=
  List.foldl_concat ..

theorem ofList_concat (es : List (String × α)) (e : String × α) :
    ofList (es ++ [e]) = (ofList es).insert e.1 e.2 :=
  extend_concat empty es e

/-- Keys stand where they occur first. -/
theorem keys_ofList (es : List (String × α)) : (ofList es).keys = (es.map Prod.fst).eraseDups := by
  induction es using List.reverseRecOn with
  | nil => rfl
  | append_singleton es e ih =>
    rw [ofList_concat, keys_insert, ih, List.map_append, List.map_singleton, eraseDups_concat]
    simp only [List.mem_eraseDups]

theorem get?_extend_of_not_mem {t : Table α} {es : List (String × α)} {k : String}
    (h : k ∉ es.map Prod.fst) : (t.extend es).get? k = t.get? k := by
  induction es generalizing t with
  | nil => rfl
  | cons e es ih =>
    rw [List.map_cons, List.mem_cons, not_or] at h
    show ((t.insert e.1 e.2).extend es).get? k = _
    rw [ih h.2, get?_insert, if_neg h.1]

/-- Under a key stands the value that came last. -/
theorem get?_ofList_of_last {before after : List (String × α)} {k : String} {v : α}
    (h : k ∉ after.map Prod.fst) : (ofList (before ++ (k, v) :: after)).get? k = some v := by
  have hsplit : ofList (before ++ (k, v) :: after) = ((ofList before).insert k v).extend after :=
    List.foldl_append ..
  rw [hsplit, get?_extend_of_not_mem h, get?_insert, if_pos rfl]

/-! ## Entries with different keys -/

/-- Entries with new keys are appended. -/
theorem entries_extend {t : Table α} {es : List (String × α)}
    (h : ((t.entries ++ es).map Prod.fst).Nodup) : (t.extend es).entries = t.entries ++ es := by
  induction es generalizing t with
  | nil => exact (List.append_nil t.entries).symm
  | cons e es ih =>
    have hnew : e.1 ∉ t.entries.map Prod.fst := by
      rw [List.map_append, List.nodup_append] at h
      exact fun he => h.2.2 e.1 he e.1 List.mem_cons_self rfl
    have hinsert : (t.insert e.1 e.2).entries = t.entries ++ [e] := put_of_notMem hnew e.2
    have hmove : t.entries ++ e :: es = (t.insert e.1 e.2).entries ++ es := by
      rw [hinsert, List.append_assoc, List.singleton_append]
    rw [hmove] at h ⊢
    exact ih h

/-- Entries whose keys differ are those of their table. -/
theorem entries_ofList {es : List (String × α)} (h : (es.map Prod.fst).Nodup) :
    (ofList es).entries = es := entries_extend (t := empty) h

theorem ofList_entries (t : Table α) : ofList t.entries = t := ext (entries_ofList t.keys_nodup)

/-- Only new keys are added, at the end; one that is added is new exactly if it was not there
before any of them. -/
theorem keys_extend {t : Table α} {es : List (String × α)} (h : (es.map Prod.fst).Nodup) :
    (t.extend es).keys = t.keys ++ (es.map Prod.fst).filter fun k => k ∉ t.keys := by
  induction es using List.reverseRecOn with
  | nil => exact (List.append_nil t.keys).symm
  | append_singleton es e ih =>
    rw [List.map_append, List.map_singleton, ← List.concat_eq_append, List.nodup_concat] at h
    have hmem : e.1 ∈ (t.extend es).keys ↔ e.1 ∈ t.keys := by
      rw [ih h.2, List.mem_append, List.mem_filter]
      exact or_iff_left fun he => h.1 he.1
    rw [extend_concat, keys_insert, List.map_append, List.filter_append, ← List.append_assoc,
      ← ih h.2]
    by_cases he : e.1 ∈ t.keys
    · rw [if_pos (hmem.mpr he)]
      simp [he]
    · rw [if_neg (mt hmem.mp he)]
      simp [he]

/-- Keys that are added take the values that are added. -/
theorem get?_extend {t : Table α} {es : List (String × α)} (h : (es.map Prod.fst).Nodup)
    (k : String) : (t.extend es).get? k = (es.lookup k).or (t.get? k) := by
  induction es generalizing t with
  | nil => rfl
  | cons e es ih =>
    rw [List.map_cons, List.nodup_cons] at h
    show ((t.insert e.1 e.2).extend es).get? k = _
    rw [lookup_cons]
    by_cases hk : k = e.1
    · subst hk
      rw [get?_extend_of_not_mem h.1, get?_insert, if_pos rfl, if_pos rfl, Option.some_or]
    · rw [ih h.2, get?_insert, if_neg hk, if_neg hk]

/-! ## A table added to another one -/

theorem keys_extend_entries (t s : Table α) :
    (t.extend s.entries).keys = t.keys ++ s.keys.filter fun k => k ∉ t.keys :=
  keys_extend s.keys_nodup

theorem get?_extend_entries (t s : Table α) (k : String) :
    (t.extend s.entries).get? k = (s.get? k).or (t.get? k) :=
  get?_extend s.keys_nodup k

end SignedDocs.Table
