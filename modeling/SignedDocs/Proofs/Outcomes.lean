/-!
Outcomes one after the other: what `mapM` tells of an action that can fail.

* `bind_ok_iff`, `map_ok_iff`, `forM_ok_iff`: two steps, a step and a function, and a step for
  every argument without results.
* `of_foldlM_ok`: what every step keeps holds at the end.
* `exists_of_foldlM_error`: the failure of a sequence of steps is that of the first one that fails.
* `mapM_ok_iff`: all results are there exactly if the action never fails.
* `exists_of_mapM_error`: otherwise the failure is that of the first argument with one.
* `mapM_map_ok`: what undoes a function for each argument undoes it for all of them.
* `map_eq_of_mapM_ok`, `exists_of_mem_mapM`, `exists_mem_of_mapM`: where the results come from,
  and that every argument has one.
-/

namespace SignedDocs

variable {α β γ ε : Type} {f : α → Except ε β}

theorem bind_ok_iff {x : Except ε α} {b : β} : (x >>= f) = .ok b ↔ ∃ a, x = .ok a ∧ f a = .ok b := by
  cases x <;> simp [bind, Except.bind]

theorem map_ok_iff {f : α → β} {x : Except ε α} {b : β} :
    x.map f = .ok b ↔ ∃ a, x = .ok a ∧ f a = b := by
  cases x <;> simp [Except.map]

theorem toOption_eq_some_iff {x : Except ε α} {a : α} : x.toOption = some a ↔ x = .ok a := by
  cases x <;> simp [Except.toOption]

theorem forM_ok_iff {f : α → Except ε Unit} {as : List α} :
    as.forM f = .ok () ↔ ∀ a ∈ as, f a = .ok () := by
  induction as with
  | nil => exact ⟨fun _ _ ha => absurd ha List.not_mem_nil, fun _ => rfl⟩
  | cons a as ih =>
    rw [List.forall_mem_cons, ← ih]
    show (f a >>= fun _ => as.forM f) = _ ↔ _
    cases f a <;> simp [bind, Except.bind]

theorem of_foldlM_ok {f : β → α → Except ε β} {kept : β → Prop}
    (step : ∀ b a b', kept b → f b a = .ok b' → kept b') {as : List α} {b b' : β} (hb : kept b)
    (h : as.foldlM f b = .ok b') : kept b' := by
  induction as generalizing b with
  | nil =>
    cases h
    exact hb
  | cons a as ih =>
    rw [List.foldlM_cons, bind_ok_iff] at h
    obtain ⟨c, hc, hrest⟩ := h
    exact ih (step b a c hb hc) hrest

/-- A failure of all steps is that of a step before which nothing fails. -/
theorem exists_of_foldlM_error {f : β → α → Except ε β} {as : List α} {b : β} {e : ε}
    (h : as.foldlM f b = .error e) : ∃ before a after c, as = before ++ a :: after ∧
      before.foldlM f b = .ok c ∧ f c a = .error e := by
  induction as generalizing b with
  | nil => cases h
  | cons a as ih =>
    rw [List.foldlM_cons] at h
    cases ha : f b a with
    | error x =>
      rw [ha] at h
      cases h
      exact ⟨[], a, as, b, rfl, rfl, ha⟩
    | ok next =>
      rw [ha] at h
      obtain ⟨before, c, after, d, rfl, hbefore, hc⟩ := ih h
      refine ⟨a :: before, c, after, d, rfl, ?_, hc⟩
      rw [List.foldlM_cons, ha]
      exact hbefore

theorem mapM_cons_ok_iff {a : α} {as : List α} {bs : List β} :
    (a :: as).mapM f = .ok bs ↔ ∃ b rest, f a = .ok b ∧ as.mapM f = .ok rest ∧ b :: rest = bs := by
  rw [List.mapM_cons]
  cases f a with
  | error x => simp [bind, Except.bind]
  | ok b => cases as.mapM f <;> simp [bind, Except.bind, pure, Except.pure]

theorem mapM_ok_iff {as : List α} :
    (∃ bs, as.mapM f = .ok bs) ↔ ∀ a ∈ as, ∃ b, f a = .ok b := by
  induction as with
  | nil => exact ⟨fun _ _ ha => absurd ha List.not_mem_nil, fun _ => ⟨[], rfl⟩⟩
  | cons a as ih =>
    rw [List.forall_mem_cons, ← ih]
    constructor
    · rintro ⟨bs, h⟩
      obtain ⟨b, rest, hb, hrest, -⟩ := mapM_cons_ok_iff.mp h
      exact ⟨⟨b, hb⟩, rest, hrest⟩
    · rintro ⟨⟨b, hb⟩, rest, hrest⟩
      exact ⟨b :: rest, mapM_cons_ok_iff.mpr ⟨b, rest, hb, hrest, rfl⟩⟩

theorem mapM_congr {g : α → Except ε β} {as : List α} (h : ∀ a ∈ as, g a = f a) :
    as.mapM g = as.mapM f := by
  induction as with
  | nil => rfl
  | cons a as ih =>
    rw [List.forall_mem_cons] at h
    rw [List.mapM_cons, List.mapM_cons, h.1, ih h.2]

/-- What undoes a function for each argument undoes it for all of them. -/
theorem mapM_map_ok {g : β → Except ε α} {f : α → β} {as : List α} (h : ∀ a ∈ as, g (f a) = .ok a) :
    (as.map f).mapM g = .ok as := by
  induction as with
  | nil => rfl
  | cons a as ih =>
    rw [List.forall_mem_cons] at h
    rw [List.map_cons]
    exact mapM_cons_ok_iff.mpr ⟨a, as, h.1, ih h.2, rfl⟩

/-- A failure of the whole is that of an argument before which nothing fails. -/
theorem exists_of_mapM_error {as : List α} {e : ε} (h : as.mapM f = .error e) :
    ∃ before a after, as = before ++ a :: after ∧ (∀ x ∈ before, ∃ b, f x = .ok b) ∧
      f a = .error e := by
  induction as with
  | nil => cases h
  | cons a as ih =>
    rw [List.mapM_cons] at h
    cases ha : f a with
    | error x =>
      rw [ha] at h
      cases h
      exact ⟨[], a, as, rfl, fun _ hx => absurd hx List.not_mem_nil, ha⟩
    | ok b =>
      cases has : as.mapM f with
      | ok rest =>
        rw [ha, has] at h
        cases h
      | error x =>
        rw [ha, has] at h
        cases h
        obtain ⟨before, c, after, rfl, hbefore, hc⟩ := ih has
        refine ⟨a :: before, c, after, rfl, ?_, hc⟩
        exact List.forall_mem_cons.mpr ⟨⟨b, ha⟩, hbefore⟩

/-- What an action observes of its results is known from its arguments. -/
theorem map_eq_of_mapM_ok {p : α → γ} {q : β → γ} (hf : ∀ a b, f a = .ok b → q b = p a)
    {as : List α} {bs : List β} (h : as.mapM f = .ok bs) : bs.map q = as.map p := by
  induction as generalizing bs with
  | nil =>
    cases h
    rfl
  | cons a as ih =>
    obtain ⟨b, rest, hb, hrest, rfl⟩ := mapM_cons_ok_iff.mp h
    rw [List.map_cons, List.map_cons, hf a b hb, ih hrest]

theorem exists_of_mem_mapM {as : List α} {bs : List β} (h : as.mapM f = .ok bs) {b : β}
    (hb : b ∈ bs) : ∃ a ∈ as, f a = .ok b := by
  induction as generalizing bs with
  | nil =>
    cases h
    cases hb
  | cons a as ih =>
    obtain ⟨c, rest, hc, hrest, rfl⟩ := mapM_cons_ok_iff.mp h
    rcases List.mem_cons.mp hb with rfl | hbr
    · exact ⟨a, List.mem_cons_self, hc⟩
    · obtain ⟨x, hx, hfx⟩ := ih hrest hbr
      exact ⟨x, List.mem_cons_of_mem a hx, hfx⟩

theorem exists_mem_of_mapM {as : List α} {bs : List β} (h : as.mapM f = .ok bs) {a : α}
    (ha : a ∈ as) : ∃ b ∈ bs, f a = .ok b := by
  induction as generalizing bs with
  | nil => cases ha
  | cons c as ih =>
    obtain ⟨b, rest, hb, hrest, rfl⟩ := mapM_cons_ok_iff.mp h
    rcases List.mem_cons.mp ha with rfl | has
    · exact ⟨b, List.mem_cons_self, hb⟩
    · obtain ⟨x, hx, hfx⟩ := ih hrest has
      exact ⟨x, List.mem_cons_of_mem b hx, hfx⟩

end SignedDocs
