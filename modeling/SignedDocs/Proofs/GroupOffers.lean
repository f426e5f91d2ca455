import SignedDocs.Proofs.ExclusiveChoice

/-!
What a synthesized group offers, whatever its headers exclude.

* `exists_ofHeaders_iff`: there is a group exactly if live headers have known formats and exclude
  headers of the set only.
* `mem_entries_iff`: the entries are those of the live headers.
* `mem_plain_iff`: which headers stand on their own, and which of them may be left out.
* `synthesize_offers`: all of this about a definition, with its text and the types that it requires.
-/

namespace SignedDocs.Cddl.Group

variable {headers : List Header} {formats : Formats} {g : Group}

/-! ## Entries -/

/-- A live header has an entry, whether it is reached on its own or as a partner only. -/
theorem exists_mem_entries (hd : (headers.map Scoped.name).Nodup)
    (hg : ofHeaders headers formats = .ok g) {h : Header} (hh : h ∈ live headers) :
    ∃ e ∈ g.entries, entryOf formats h = .ok e := by
  obtain ⟨e, he, hname⟩ := List.mem_map.mp ((mem_header_entries_iff hg).mpr ⟨h, hh, rfl⟩)
  obtain ⟨x, hx, hxe⟩ := exists_header_of_mem_entries hg he
  have hxh : x = h := eq_of_name hd (mem_of_mem_live hx) (mem_of_mem_live hh)
    ((header_of_entryOf hxe).symm.trans hname)
  rw [hxh] at hxe
  exact ⟨e, he, hxe⟩

/-- Entries belong to live headers, and every live header has one. -/
theorem mem_entries_iff (hd : (headers.map Scoped.name).Nodup)
    (hg : ofHeaders headers formats = .ok g) {e : Entry} :
    e ∈ g.entries ↔ ∃ h ∈ live headers, entryOf formats h = .ok e := by
  constructor
  · exact exists_header_of_mem_entries hg
  · rintro ⟨h, hh, he⟩
    obtain ⟨e', he', hhe⟩ := exists_mem_entries hd hg hh
    rw [he] at hhe
    cases hhe
    exact he'

/-- A group exists exactly if live headers have known formats and partners in the set, be they
live or excluded. -/
theorem exists_ofHeaders_iff (hd : (headers.map Scoped.name).Nodup) :
    (∃ g, ofHeaders headers formats = .ok g) ↔ ∀ h ∈ live headers,
      h.record.format ∈ formats.keys ∧ ∀ m ∈ h.record.exclusive, m ∈ headers.map Scoped.name := by
  constructor
  · rintro ⟨g, hg⟩ h hh
    obtain ⟨plain, choices, hplain, -, -⟩ := ofHeaders_eq_ok_iff.mp hg
    obtain ⟨part, -, hpart⟩ := exists_mem_of_mapM hplain hh
    obtain ⟨e, -, he⟩ := exists_mem_entries hd hg hh
    obtain ⟨f, hf, -⟩ := entryOf_eq_ok_iff.mp he
    exact ⟨Table.mem_keys_iff.mpr ⟨f, hf⟩, checkMembers_eq_ok_iff.mp (plainOf_eq_ok_iff.mp hpart).1⟩
  · intro h
    exact exists_ofHeaders (fun x hx => (h x hx).2) (fun x hx => (h x hx).1)

/-! ## Plain entries -/

/-- A header is alone if it excludes no other live header; whether others exclude it does not
matter. -/
theorem isAlone_iff (hd : (headers.map Scoped.name).Nodup) {h : Header} (hh : h ∈ live headers) :
    isAlone (live headers) h = true ↔
      ∀ x ∈ live headers, x.name ∈ h.record.exclusive → x = h := by
  constructor
  · intro ha x hx hxh
    have hmem : x ∈ circle (live headers) h := mem_circle.mpr ⟨hx, Or.inr hxh⟩
    rw [circle_of_isAlone hh ha] at hmem
    exact List.mem_singleton.mp hmem
  · intro hnone
    have hself : ∀ x ∈ circle (live headers) h, x = h := by
      intro x hx
      obtain ⟨hxl, hname | hxh⟩ := mem_circle.mp hx
      · exact eq_of_name hd (mem_of_mem_live hxl) (mem_of_mem_live hh) hname
      · exact hnone x hxl hxh
    have hnodup : (circle (live headers) h).Nodup :=
      ((nodup_map_name_live hd).of_map _).filter _
    have hmem := self_mem_circle hh
    unfold isAlone
    rcases hcircle : circle (live headers) h with _ | ⟨x, _ | ⟨y, rest⟩⟩
    · rw [hcircle] at hmem
      cases hmem
    · rfl
    · rw [hcircle] at hself hnodup
      have hx := hself x List.mem_cons_self
      have hy := hself y (List.mem_cons_of_mem x List.mem_cons_self)
      exact absurd (hx.trans hy.symm) (List.ne_of_not_mem_cons (List.nodup_cons.mp hnodup).1)

theorem mem_plain_iff (hg : ofHeaders headers formats = .ok g) {optional : Bool} {e : Entry} :
    Part.plain optional e ∈ g ↔ ∃ h ∈ live headers, isAlone (live headers) h = true ∧
      entryOf formats h = .ok e ∧ (!h.record.presence.isRequired) = optional := by
  obtain ⟨plain, choices, hplain, hchoices, rfl⟩ := ofHeaders_eq_ok_iff.mp hg
  have hchoice : Part.plain optional e ∉ choices.map Part.choice := by
    intro h
    obtain ⟨es, -, hes⟩ := List.mem_map.mp h
    cases hes
  rw [List.mem_append, or_iff_left hchoice, List.mem_filterMap]
  constructor
  · rintro ⟨part, hmem, hpart⟩
    obtain ⟨h, hh, hplain⟩ := exists_of_mem_mapM hplain hmem
    have hsome := (plainOf_eq_ok_iff.mp hplain).2
    by_cases ha : isAlone (live headers) h = true
    · rw [if_pos ha] at hsome
      obtain ⟨e', he', rfl⟩ := hsome
      cases hpart
      exact ⟨h, hh, ha, he', rfl⟩
    · rw [if_neg ha] at hsome
      cases hsome
      cases hpart
  · rintro ⟨h, hh, ha, he, rfl⟩
    obtain ⟨part, hmem, hpart⟩ := exists_mem_of_mapM hplain hh
    have hsome := (plainOf_eq_ok_iff.mp hpart).2
    rw [if_pos ha, he] at hsome
    obtain ⟨e', he', rfl⟩ := hsome
    cases he'
    exact ⟨_, hmem, rfl⟩

/-! ## Offers -/

/-- What a group offers of its headers: every live header with its label and the type of its
format, and no excluded one. A live header stands on its own if it excludes no other one that is
live, and may then be left out unless it is required. -/
structure Offers (g : Group) (headers : List Header) (formats : Formats) : Prop where
  live : ∀ h ∈ live headers, ∃ f, formats.get? h.record.format = some f ∧
    ⟨h.name, h.label, f.cddl⟩ ∈ g.entries
  excluded : ∀ h ∈ headers, h.record.presence = .excluded → ∀ e ∈ g.entries, e.header ≠ h.name
  alone : ∀ h ∈ Group.live headers, (∃ optional e, Part.plain optional e ∈ g ∧ e.header = h.name) ↔
    ∀ x ∈ Group.live headers, x.name ∈ h.record.exclusive → x = h
  optional : ∀ h ∈ Group.live headers, ∀ optional e, Part.plain optional e ∈ g →
    e.header = h.name → (optional = true ↔ h.record.presence ≠ .required)

theorem offers_ofHeaders (hd : (headers.map Scoped.name).Nodup)
    (hg : ofHeaders headers formats = .ok g) : g.Offers headers formats := by
  have hsame : ∀ h ∈ live headers, ∀ x ∈ live headers, ∀ e, entryOf formats x = .ok e →
      e.header = h.name → x = h := fun h hh x hx e he hname =>
    eq_of_name hd (mem_of_mem_live hx) (mem_of_mem_live hh) ((header_of_entryOf he).symm.trans hname)
  refine ⟨?_, ?_, ?_, ?_⟩
  · intro h hh
    obtain ⟨hformat, -⟩ := (exists_ofHeaders_iff hd).mp ⟨g, hg⟩ h hh
    obtain ⟨f, hf⟩ := Table.mem_keys_iff.mp hformat
    exact ⟨f, hf, (mem_entries_iff hd hg).mpr ⟨h, hh, entryOf_eq_ok_iff.mpr ⟨f, hf, rfl⟩⟩⟩
  · intro h hh hexcluded e he hname
    obtain ⟨x, hx, hxe⟩ := (mem_entries_iff hd hg).mp he
    have hxh : x = h :=
      eq_of_name hd (mem_of_mem_live hx) hh ((header_of_entryOf hxe).symm.trans hname)
    have hlive := (List.mem_filter.mp hx).2
    rw [hxh, hexcluded] at hlive
    cases hlive
  · intro h hh
    rw [← isAlone_iff hd hh]
    constructor
    · rintro ⟨optional, e, hplain, hname⟩
      obtain ⟨x, hx, ha, hxe, -⟩ := (mem_plain_iff hg).mp hplain
      rw [← hsame h hh x hx e hxe hname]
      exact ha
    · intro ha
      obtain ⟨hformat, -⟩ := (exists_ofHeaders_iff hd).mp ⟨g, hg⟩ h hh
      obtain ⟨e, he⟩ := exists_entryOf hformat
      exact ⟨_, e, (mem_plain_iff hg).mpr ⟨h, hh, ha, he, rfl⟩, header_of_entryOf he⟩
  · intro h hh optional e hplain hname
    obtain ⟨x, hx, -, hxe, rfl⟩ := (mem_plain_iff hg).mp hplain
    rw [hsame h hh x hx e hxe hname]
    cases h.record.presence <;> decide

/-! ## Requirements -/

theorem nodup_addName {seen : List String} (h : seen.Nodup) (name : String) :
    (addName seen name).Nodup := by
  unfold addName
  split
  · exact h
  · rename_i hname
    rw [List.contains_iff_mem] at hname
    rw [← List.concat_eq_append]
    exact h.concat hname

theorem nodup_requires (g : Group) : g.requires.Nodup := by
  unfold requires
  suffices ∀ seen : List String, seen.Nodup →
      ((g.entries.map Entry.type).foldl addName seen).Nodup from this [] List.nodup_nil
  induction g.entries.map Entry.type with
  | nil => exact fun _ h => h
  | cons name names ih => exact fun seen h => ih _ (nodup_addName h name)

/-! ## Definitions -/

/-- Headers have a definition exactly if the live ones have known formats and exclude headers of
the set only. Its group then offers the live headers, its text shows the group, and it requires
the types of the entries in their order without repetitions. -/
theorem synthesize_offers (hd : (headers.map Scoped.name).Nodup) (formats : Formats) (name : String)
    (base : Option Rule) :
    ((∃ d, synthesize name base headers formats = .ok d) ↔ ∀ h ∈ live headers,
      h.record.format ∈ formats.keys ∧ ∀ m ∈ h.record.exclusive, m ∈ headers.map Scoped.name) ∧
    ∀ d, synthesize name base headers formats = .ok d → ∃ g, ofHeaders headers formats = .ok g ∧
      d = g.definition name base ∧ g.Offers headers formats ∧ g.Shows d.rule.body ∧
      d.rule.requires.Nodup ∧ d.rule.requires = (g.entries.map Entry.type).eraseDups := by
  refine ⟨?_, ?_⟩
  · rw [← exists_ofHeaders_iff hd]
    constructor
    · rintro ⟨d, h⟩
      obtain ⟨g, hg, -⟩ := synthesize_eq_ok_iff.mp h
      exact ⟨g, hg⟩
    · rintro ⟨g, hg⟩
      exact ⟨_, synthesize_eq_ok_iff.mpr ⟨g, hg, rfl⟩⟩
  · intro d h
    obtain ⟨g, hg, rfl⟩ := synthesize_eq_ok_iff.mp h
    exact ⟨g, hg, rfl, offers_ofHeaders hd hg, shows_text (choosable_ofHeaders hg),
      nodup_requires g, requires_eq_eraseDups g⟩

/-- A header that excludes another one that does not exclude it, and an excluded header. -/
def oneSidedHeaders : List Header :=
  [textHeader "a" ["b", "c"], textHeader "b" [], ⟨"c", none, none, .excluded, "none", ["d"]⟩]

/-- The second header stands on its own, and in the choice of the first one. The third one counts
as a partner only, whatever its own format and partners. -/
theorem oneSidedHeaders_offered : (oneSidedHeaders.map Scoped.name).Nodup ∧
    ∃ d g, synthesize "group" none oneSidedHeaders textFormats = .ok d ∧
      d = Group.definition g "group" none ∧ Offers g oneSidedHeaders textFormats ∧
      g = [.plain true (textEntry "b"), .choice [textEntry "a", textEntry "b"]] ∧
      Text.cut '\n' d.rule.body = ["(", "  ?\"b\" => tstr", "  ? (", "    \"a\" => tstr //",
        "    \"b\" => tstr", "  )", ")"] ∧
      d.rule.requires = ["tstr"] := by
  have hd : (oneSidedHeaders.map Scoped.name).Nodup := by decide
  obtain ⟨hdefined, hoffers⟩ := synthesize_offers hd textFormats "group" none
  obtain ⟨d, hdefinition⟩ := hdefined.mpr (by decide)
  obtain ⟨g, hg, rfl, h, hshows, -, -⟩ := hoffers d hdefinition
  have hgroup : ofHeaders oneSidedHeaders textFormats =
      .ok [.plain true (textEntry "b"), .choice [textEntry "a", textEntry "b"]] := rfl
  rw [hgroup] at hg
  cases hg
  have hrows := hshows.rows (List.cons_ne_nil _ _)
    (by simp [entries, Part.entries, Entry.OneLine, textEntry])
  exact ⟨hd, _, _, hdefinition, rfl, h, rfl, hrows.trans (by decide), rfl⟩

end SignedDocs.Cddl.Group
