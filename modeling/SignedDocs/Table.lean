/-!
Tables: values under text keys, in the order in which the keys arrived.

* A key occurs once (`keys_nodup`).
* `insert`: a new key goes to the end; a key that is there keeps its place and
  takes the new value.
* `swapErase`: the last entry moves into the hole.
-/

namespace SignedDocs

universe u v w

/-- Entries in the order of first arrival, no key twice. -/
structure Table (α : Type u) where
  entries : List (String × α)
  keys_nodup : (entries.map Prod.fst).Nodup

namespace Table

variable {α : Type u} {β : Type v}

@[ext] theorem ext {s t : Table α} (h : s.entries = t.entries) : s = t := by
  cases s; cases t; cases h; rfl

def empty : Table α := ⟨[], List.nodup_nil⟩

instance : Inhabited (Table α) := ⟨empty⟩

def keys (t : Table α) : List String := t.entries.map Prod.fst

def values (t : Table α) : List α := t.entries.map Prod.snd

def size (t : Table α) : Nat := t.entries.length

def isEmpty (t : Table α) : Bool := t.entries.isEmpty

def get? (t : Table α) (k : String) : Option α := t.entries.lookup k

def contains (t : Table α) (k : String) : Bool := t.keys.contains k

/-! ## Lookup -/

theorem contains_iff {t : Table α} {k : String} : t.contains k = true ↔ k ∈ t.keys := by
  simp [contains]

theorem mem_keys_of_mem {t : Table α} {e : String × α} (h : e ∈ t.entries) : e.1 ∈ t.keys :=
  List.mem_map.mpr ⟨e, h, rfl⟩

theorem lookup_cons {κ : Type w} [BEq κ] [LawfulBEq κ] [DecidableEq κ] (l : κ) (e : κ × α)
    (es : List (κ × α)) :
    (e :: es).lookup l = if l = e.1 then some e.2 else es.lookup l := by
  rw [List.lookup_cons]
  by_cases h : l = e.1
  · rw [beq_iff_eq.mpr h, if_pos h]
  · rw [beq_eq_false_iff_ne.mpr h, if_neg h]

theorem lookup_eq_some_iff_mem {es : List (String × α)} (hd : (es.map Prod.fst).Nodup)
    {k : String} {v : α} : es.lookup k = some v ↔ (k, v) ∈ es := by
  induction es with
  | nil => simp
  | cons e es ih =>
    rw [List.map_cons, List.nodup_cons] at hd
    rw [lookup_cons, List.mem_cons]
    by_cases hk : k = e.1
    · subst hk
      rw [if_pos rfl]
      constructor
      · intro h
        left
        rw [← Option.some.inj h]
      · rintro (h | h)
        · rw [← h]
        · exact absurd (List.mem_map.mpr ⟨_, h, rfl⟩) hd.1
    · rw [if_neg hk, ih hd.2]
      constructor
      · exact Or.inr
      · rintro (h | h)
        · exact absurd (congrArg Prod.fst h) hk
        · exact h

/-- A key leads to the value of its entry. -/
theorem get?_eq_some_iff {t : Table α} {k : String} {v : α} :
    t.get? k = some v ↔ (k, v) ∈ t.entries :=
  lookup_eq_some_iff_mem t.keys_nodup

theorem mem_keys_iff {t : Table α} {k : String} : k ∈ t.keys ↔ ∃ v, t.get? k = some v := by
  constructor
  · intro h
    obtain ⟨e, he, rfl⟩ := List.mem_map.mp h
    exact ⟨e.2, get?_eq_some_iff.mpr he⟩
  · rintro ⟨v, hv⟩
    exact mem_keys_of_mem (get?_eq_some_iff.mp hv)

theorem get?_eq_none_iff {t : Table α} {k : String} : t.get? k = none ↔ k ∉ t.keys := by
  rw [mem_keys_iff]
  cases t.get? k <;> simp

/-- What holds of all entries holds of the value of every key. -/
theorem forall_mem_entries {t : Table α} {P : String → α → Prop} :
    (∀ e ∈ t.entries, P e.1 e.2) ↔ ∀ k v, t.get? k = some v → P k v := by
  constructor
  · intro H k v hv
    exact H (k, v) (get?_eq_some_iff.mp hv)
  · intro H e he
    exact H e.1 e.2 (get?_eq_some_iff.mpr he)

/-- What holds of all values holds of the value of every key. -/
theorem forall_mem_values {t : Table α} {P : α → Prop} :
    (∀ v ∈ t.values, P v) ↔ ∀ k v, t.get? k = some v → P v := by
  unfold values
  rw [← forall_mem_entries (P := fun _ v => P v), List.forall_mem_map]

/-! ## Insertion -/

/-- Entries with `v` under `k`. -/
def put (k : String) (v : α) : List (String × α) → List (String × α)
  | [] => [(k, v)]
  | e :: es => if e.1 = k then (k, v) :: es else e :: put k v es

theorem map_fst_put (k : String) (v : α) (es : List (String × α)) :
    (put k v es).map Prod.fst = if k ∈ es.map Prod.fst then es.map Prod.fst
      else es.map Prod.fst ++ [k] := by
  induction es with
  | nil => simp [put]
  | cons e es ih =>
    unfold put
    by_cases h : e.1 = k
    · simp [h]
    · have hk : k ≠ e.1 := fun h' => h h'.symm
      by_cases hm : k ∈ es.map Prod.fst
      · simp [h, ih, hm]
      · simp [h, hk, ih, hm]

theorem nodup_put (k : String) (v : α) (es : List (String × α))
    (h : (es.map Prod.fst).Nodup) : ((put k v es).map Prod.fst).Nodup := by
  rw [map_fst_put]
  split
  · exact h
  · rename_i hk
    rw [List.nodup_append]
    refine ⟨h, by simp, ?_⟩
    intro a ha b hb he
    rw [List.mem_singleton] at hb
    subst hb; subst he
    exact hk ha

theorem lookup_put (k : String) (v : α) (es : List (String × α)) (l : String) :
    (put k v es).lookup l = if l = k then some v else es.lookup l := by
  induction es with
  | nil => exact lookup_cons l (k, v) []
  | cons e es ih =>
    unfold put
    by_cases he : e.1 = k
    · rw [if_pos he, lookup_cons, lookup_cons, he]
      by_cases h : l = k <;> simp [h]
    · rw [if_neg he, lookup_cons, lookup_cons, ih]
      by_cases hl : l = e.1
      · rw [if_pos hl, if_neg fun h => he (hl.symm.trans h), if_pos hl]
      · rw [if_neg hl, if_neg hl]

def insert (t : Table α) (k : String) (v : α) : Table α :=
  ⟨put k v t.entries, nodup_put k v t.entries t.keys_nodup⟩

theorem get?_insert (t : Table α) (k : String) (v : α) (l : String) :
    (t.insert k v).get? l = if l = k then some v else t.get? l :=
  lookup_put k v t.entries l

/-- Entries inserted one after the other: repeats keep the first place and the last value. -/
def extend (t : Table α) (es : List (String × α)) : Table α :=
  es.foldl (fun t e => t.insert e.1 e.2) t

def ofList (es : List (String × α)) : Table α := empty.extend es

/-! ## Mapping -/

theorem map_fst_mapEntries (f : String → α → β) (es : List (String × α)) :
    (es.map fun e => (e.1, f e.1 e.2)).map Prod.fst = es.map Prod.fst := by
  induction es with
  | nil => rfl
  | cons e es ih => simp

/-- The same keys with other values. -/
def mapValues (t : Table α) (f : String → α → β) : Table β :=
  ⟨t.entries.map fun e => (e.1, f e.1 e.2), by
    rw [map_fst_mapEntries]; exact t.keys_nodup⟩

theorem get?_mapValues (t : Table α) (f : String → α → β) (k : String) :
    (t.mapValues f).get? k = (t.get? k).map (f k) := by
  apply Option.ext
  intro w
  rw [get?_eq_some_iff, Option.map_eq_some_iff]
  constructor
  · intro h
    obtain ⟨e, he, hw⟩ := List.mem_map.mp h
    cases hw
    exact ⟨e.2, get?_eq_some_iff.mpr he, rfl⟩
  · rintro ⟨v, hv, rfl⟩
    exact List.mem_map.mpr ⟨(k, v), get?_eq_some_iff.mp hv, rfl⟩

theorem keys_mapValues (t : Table α) (f : String → α → β) : (t.mapValues f).keys = t.keys :=
  map_fst_mapEntries f t.entries

theorem sublist_filterMapEntries (f : String → α → Option β) (es : List (String × α)) :
    ((es.filterMap fun e => (f e.1 e.2).map fun v => (e.1, v)).map Prod.fst).Sublist
      (es.map Prod.fst) := by
  induction es with
  | nil => exact List.Sublist.slnil
  | cons e es ih =>
    cases h : f e.1 e.2 with
    | none => simpa [h] using ih.cons e.1
    | some v => simpa [h] using ih.cons_cons e.1

/-- The entries for which `f` has a value. -/
def filterMap (t : Table α) (f : String → α → Option β) : Table β :=
  ⟨t.entries.filterMap fun e => (f e.1 e.2).map fun v => (e.1, v),
    (sublist_filterMapEntries f t.entries).nodup t.keys_nodup⟩

theorem get?_filterMap (t : Table α) (f : String → α → Option β) (k : String) :
    (t.filterMap f).get? k = (t.get? k).bind (f k) := by
  apply Option.ext
  intro b
  rw [get?_eq_some_iff, Option.bind_eq_some_iff]
  show (k, b) ∈ t.entries.filterMap (fun e => (f e.1 e.2).map fun v => (e.1, v)) ↔ _
  rw [List.mem_filterMap]
  constructor
  · rintro ⟨e, he, hb⟩
    obtain ⟨b', hb', heq⟩ := Option.map_eq_some_iff.mp hb
    cases heq
    exact ⟨e.2, get?_eq_some_iff.mpr he, hb'⟩
  · rintro ⟨a, ha, hb⟩
    exact ⟨(k, a), get?_eq_some_iff.mp ha, Option.map_eq_some_iff.mpr ⟨b, hb, rfl⟩⟩

/-! ## Removal -/

/-- Entries without `k`, the last one moved into its place. -/
def swapOut (k : String) (es : List (String × α)) : List (String × α) :=
  match es.getLast? with
  | none => []
  | some last =>
    if last.1 = k then es.dropLast
    else if k ∈ es.map Prod.fst then es.dropLast.map fun e => if e.1 = k then last else e
    else es

theorem nodup_replace (k l : String) (ks : List String) (h : ks.Nodup) (hl : l ∉ ks) :
    (ks.map fun a => if a = k then l else a).Nodup := by
  induction ks with
  | nil => simp
  | cons a ks ih =>
    rw [List.nodup_cons] at h
    rw [List.mem_cons, not_or] at hl
    rw [List.map_cons, List.nodup_cons]
    refine ⟨?_, ih h.2 hl.2⟩
    intro hm
    obtain ⟨b, hb, hbe⟩ := List.mem_map.mp hm
    by_cases ha : a = k
    · by_cases hbk : b = k
      · exact h.1 (ha.trans hbk.symm ▸ hb)
      · rw [if_neg hbk, if_pos ha] at hbe
        exact hl.2 (hbe ▸ hb)
    · by_cases hbk : b = k
      · rw [if_pos hbk, if_neg ha] at hbe
        exact hl.1 hbe
      · rw [if_neg hbk, if_neg ha] at hbe
        exact h.1 (hbe ▸ hb)

theorem nodup_swapOut (k : String) (es : List (String × α)) (h : (es.map Prod.fst).Nodup) :
    ((swapOut k es).map Prod.fst).Nodup := by
  unfold swapOut
  split
  · simp
  · rename_i last hlast
    have he : es = es.dropLast ++ [last] := by
      obtain ⟨ys, rfl⟩ := List.getLast?_eq_some_iff.mp hlast
      simp
    have hd : (es.dropLast.map Prod.fst).Nodup ∧ last.1 ∉ es.dropLast.map Prod.fst := by
      have h2 := h
      rw [he, List.map_append, List.nodup_append] at h2
      exact ⟨h2.1, fun hm => h2.2.2 last.1 hm last.1 (by simp) rfl⟩
    split
    · exact hd.1
    · split
      · have hr := nodup_replace k last.1 _ hd.1 hd.2
        rw [List.map_map] at hr ⊢
        have hf : (fun a => if a = k then last.1 else a) ∘ Prod.fst =
            Prod.fst ∘ fun e : String × α => if e.1 = k then last else e := by
          funext e
          simp only [Function.comp]
          split <;> rfl
        rw [hf] at hr
        exact hr
      · exact h

/-- The table without `k`, its last entry moved into the hole. -/
def swapErase (t : Table α) (k : String) : Table α :=
  ⟨swapOut k t.entries, nodup_swapOut k t.entries t.keys_nodup⟩

end Table

end SignedDocs
