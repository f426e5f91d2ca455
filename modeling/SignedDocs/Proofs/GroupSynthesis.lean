import SignedDocs.Cddl.Group
import SignedDocs.Proofs.Outcomes

/-!
When headers have a group, and what a group requires.

* `ofHeaders_eq_ok_iff` and its like: what each step of the synthesis gives, if it gives
  anything.
* `exists_ofHeaders`: headers that exclude headers of their set only, and have known formats,
  always have a group.
* `exists_format_of_mem_requires`: a group requires types of known formats.
-/

namespace SignedDocs.Cddl.Group

variable {headers : List Header} {formats : Formats}

/-! ## Steps -/

theorem checkMembers_eq_ok_iff {h : Header} :
    checkMembers headers h = .ok () ↔
      ∀ m ∈ h.record.exclusive, m ∈ headers.map Scoped.name := by
  have hnone : (h.record.exclusive.find? fun m => !headers.any (·.name == m)) = none ↔
      ∀ m ∈ h.record.exclusive, m ∈ headers.map Scoped.name := by
    simp [List.find?_eq_none, List.mem_map]
  unfold checkMembers
  rw [← hnone]
  cases h.record.exclusive.find? fun m => !headers.any (·.name == m) <;> simp

theorem entryOf_eq_ok_iff {h : Header} {e : Entry} :
    entryOf formats h = .ok e ↔
      ∃ f, formats.get? h.record.format = some f ∧ ⟨h.name, h.label, f.cddl⟩ = e := by
  unfold entryOf
  cases formats.get? h.record.format <;> simp

/-- A header has an entry if its format is known. -/
theorem exists_entryOf {h : Header} (hf : h.record.format ∈ formats.keys) :
    ∃ e, entryOf formats h = .ok e := by
  obtain ⟨f, hf⟩ := Table.mem_keys_iff.mp hf
  exact ⟨_, entryOf_eq_ok_iff.mpr ⟨f, hf, rfl⟩⟩

theorem plainOf_eq_ok_iff {h : Header} {part : Option Part} :
    plainOf headers formats h = .ok part ↔ checkMembers headers h = .ok () ∧
      if isAlone (live headers) h then
        ∃ e, entryOf formats h = .ok e ∧ some (.plain (!h.record.presence.isRequired) e) = part
      else none = part := by
  unfold plainOf
  cases checkMembers headers h with
  | error x => simp [bind, Except.bind]
  | ok u =>
    by_cases ha : isAlone (live headers) h = true
    · cases entryOf formats h <;> simp [ha, bind, Except.bind, pure, Except.pure]
    · simp [ha, bind, Except.bind, pure, Except.pure]

theorem ofHeaders_eq_ok_iff {g : Group} :
    ofHeaders headers formats = .ok g ↔ ∃ plain choices,
      (live headers).mapM (plainOf headers formats) = .ok plain ∧
      ((circles headers).mapM fun c => c.mapM (entryOf formats)) = .ok choices ∧
      plain.filterMap id ++ choices.map .choice = g := by
  unfold ofHeaders
  cases (live headers).mapM (plainOf headers formats) with
  | error x => simp [bind, Except.bind]
  | ok plain =>
    cases (circles headers).mapM fun c => c.mapM (entryOf formats) <;>
      simp [bind, Except.bind, pure, Except.pure]

theorem synthesize_eq_ok_iff {name : String} {base : Option Rule} {e : Definition} :
    synthesize name base headers formats = .ok e ↔
      ∃ g, ofHeaders headers formats = .ok g ∧ g.definition name base = e := by
  unfold synthesize
  cases ofHeaders headers formats <;> simp [bind, Except.bind, pure, Except.pure]

/-! ## Success -/

/-- Adds a list, unless there is one with the same names. -/
def addNew (seen : List (List Header)) (c : List Header) : List (List Header) :=
  if seen.any fun d => d.map Scoped.name == c.map Scoped.name then seen else seen ++ [c]

theorem distinctNames_eq (cs : List (List Header)) : distinctNames cs = cs.foldl addNew [] := rfl

theorem mem_of_mem_foldl_addNew {seen cs : List (List Header)} {c : List Header}
    (h : c ∈ cs.foldl addNew seen) : c ∈ seen ∨ c ∈ cs := by
  induction cs generalizing seen with
  | nil => exact Or.inl h
  | cons d cs ih =>
    rw [List.mem_cons]
    rcases ih h with hs | hcs
    · unfold addNew at hs
      split at hs
      · exact Or.inl hs
      · rw [List.mem_append, List.mem_singleton] at hs
        exact hs.imp_right Or.inl
    · exact Or.inr (Or.inr hcs)

theorem exists_of_mem_circles {c : List Header} (hc : c ∈ circles headers) :
    ∃ h ∈ live headers, circle (live headers) h = c := by
  unfold circles at hc
  rw [distinctNames_eq] at hc
  obtain ⟨h, hh, rfl⟩ := List.mem_map.mp ((mem_of_mem_foldl_addNew hc).resolve_left List.not_mem_nil)
  exact ⟨h, (List.mem_filter.mp hh).1, rfl⟩

/-- Circles consist of live headers. -/
theorem mem_live_of_mem_circles {c : List Header} (hc : c ∈ circles headers) {h : Header}
    (hh : h ∈ c) : h ∈ live headers := by
  obtain ⟨x, -, rfl⟩ := exists_of_mem_circles hc
  exact (List.mem_filter.mp hh).1

/-- Headers whose formats are known, and that exclude headers of the set only, have a group. -/
theorem exists_ofHeaders (hm : ∀ h ∈ live headers, ∀ m ∈ h.record.exclusive,
      m ∈ headers.map Scoped.name) (hf : ∀ h ∈ live headers, h.record.format ∈ formats.keys) :
    ∃ g, ofHeaders headers formats = .ok g := by
  have hplain : ∀ h ∈ live headers, ∃ part, plainOf headers formats h = .ok part := by
    intro h hh
    obtain ⟨e, he⟩ := exists_entryOf (hf h hh)
    have hmembers := checkMembers_eq_ok_iff.mpr (hm h hh)
    by_cases ha : isAlone (live headers) h = true
    · exact ⟨_, plainOf_eq_ok_iff.mpr ⟨hmembers, by rw [if_pos ha]; exact ⟨e, he, rfl⟩⟩⟩
    · exact ⟨_, plainOf_eq_ok_iff.mpr ⟨hmembers, by rw [if_neg ha]⟩⟩
  have hchoice : ∀ c ∈ circles headers, ∃ es, c.mapM (entryOf formats) = .ok es := by
    intro c hc
    refine mapM_ok_iff.mpr ?_
    intro h hh
    exact exists_entryOf (hf h (mem_live_of_mem_circles hc hh))
  obtain ⟨plain, hplain⟩ := mapM_ok_iff.mpr hplain
  obtain ⟨choices, hchoices⟩ := mapM_ok_iff.mpr hchoice
  exact ⟨_, ofHeaders_eq_ok_iff.mpr ⟨plain, choices, hplain, hchoices, rfl⟩⟩

/-! ## Requirements -/

theorem exists_header_of_mem_plain {plain : List (Option Part)} {e : Entry}
    (h : (live headers).mapM (plainOf headers formats) = .ok plain)
    (he : ∃ p ∈ plain.filterMap id, e ∈ p.entries) :
    ∃ x ∈ live headers, entryOf formats x = .ok e := by
  obtain ⟨p, hp, hep⟩ := he
  obtain ⟨_, hmem, rfl⟩ := List.mem_filterMap.mp hp
  obtain ⟨x, hlive, hx⟩ := exists_of_mem_mapM h hmem
  have hpart := (plainOf_eq_ok_iff.mp hx).2
  by_cases ha : isAlone (live headers) x = true
  · rw [if_pos ha] at hpart
    obtain ⟨y, hy, hyp⟩ := hpart
    cases hyp
    rw [List.mem_singleton.mp hep]
    exact ⟨x, hlive, hy⟩
  · rw [if_neg ha] at hpart
    cases hpart

theorem exists_header_of_mem_choices {choices : List (List Entry)} {e : Entry}
    (h : ((circles headers).mapM fun c => c.mapM (entryOf formats)) = .ok choices)
    (he : ∃ p ∈ choices.map Part.choice, e ∈ p.entries) :
    ∃ x ∈ live headers, entryOf formats x = .ok e := by
  obtain ⟨p, hp, hep⟩ := he
  obtain ⟨es, hes, rfl⟩ := List.mem_map.mp hp
  obtain ⟨c, hc, hentries⟩ := exists_of_mem_mapM h hes
  obtain ⟨x, hxc, hx⟩ := exists_of_mem_mapM hentries hep
  exact ⟨x, mem_live_of_mem_circles hc hxc, hx⟩

/-- Entries are those of live headers. -/
theorem exists_header_of_mem_entries {g : Group} (hg : ofHeaders headers formats = .ok g)
    {e : Entry} (he : e ∈ g.entries) : ∃ x ∈ live headers, entryOf formats x = .ok e := by
  obtain ⟨plain, choices, hplain, hchoices, rfl⟩ := ofHeaders_eq_ok_iff.mp hg
  unfold entries at he
  rw [List.flatMap_append, List.mem_append, List.mem_flatMap, List.mem_flatMap] at he
  exact he.elim (exists_header_of_mem_plain hplain) (exists_header_of_mem_choices hchoices)

theorem addName_eraseDups (names : List String) (name : String) :
    addName names.eraseDups name = (names ++ [name]).eraseDups := by
  rw [List.eraseDups_append]
  unfold addName
  by_cases h : name ∈ names <;> simp [List.removeAll, List.eraseDups_cons, h]

/-- Names one after the other: later repetitions are left out. -/
theorem foldl_addName (seen names : List String) :
    names.foldl addName seen.eraseDups = (seen ++ names).eraseDups := by
  induction names generalizing seen with
  | nil => rw [List.append_nil, List.foldl_nil]
  | cons name names ih =>
    rw [List.foldl_cons, addName_eraseDups, ih, List.append_assoc, List.singleton_append]

theorem requires_eq_eraseDups (g : Group) : g.requires = (g.entries.map Entry.type).eraseDups :=
  foldl_addName [] (g.entries.map Entry.type)

theorem mem_requires_iff {g : Group} {n : String} :
    n ∈ g.requires ↔ ∃ e ∈ g.entries, e.type = n := by
  rw [requires_eq_eraseDups, List.mem_eraseDups, List.mem_map]

/-- A group requires the types of known formats only. -/
theorem exists_format_of_mem_requires {g : Group} (hg : ofHeaders headers formats = .ok g)
    {n : String} (hn : n ∈ g.requires) : ∃ name f, formats.get? name = some f ∧ f.cddl = n := by
  obtain ⟨e, he, rfl⟩ := mem_requires_iff.mp hn
  obtain ⟨x, -, hx⟩ := exists_header_of_mem_entries hg he
  obtain ⟨f, hf, rfl⟩ := entryOf_eq_ok_iff.mp hx
  exact ⟨_, f, hf, rfl⟩

end SignedDocs.Cddl.Group
