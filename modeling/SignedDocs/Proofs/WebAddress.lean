import SignedDocs.Links

/-!
Web addresses: which texts the pattern of documentation links accepts.

* `WebAddress`: the form of an address, said without patterns.
* `occursIn_webPattern`: the pattern accepts exactly the web addresses.
* `malformed_eq`: looking for malformed links never fails.
-/

namespace SignedDocs

/-- One of the two schemes, then a text without blanks that does not begin with a
delimiter. -/
def WebAddress (url : String) : Prop :=
  ∃ scheme ∈ ["http://", "https://"], ∃ c rest, url.toList = scheme.toList ++ c :: rest ∧
    c ∉ ['/', '$', '.', '?', '#'] ∧ ∀ x ∈ c :: rest, Text.isBlank x = false

/-! ## Ends of matches -/

namespace Pattern

theorem mem_ends_seq {p q : Pattern} {c d : Cursor} :
    d ∈ (Pattern.seq p q).ends c ↔ ∃ e ∈ p.ends c, d ∈ q.ends e := by
  simp only [ends, List.mem_flatMap]

theorem mem_ends_one {set : CharSet} {c d : Cursor} :
    d ∈ (Pattern.one set).ends c ↔
      ∃ a, c.rest = a :: d.rest ∧ set.contains a = true ∧ d.moved = true := by
  obtain ⟨moved, rest⟩ := d
  unfold ends
  cases c.rest with
  | nil => simp
  | cons a as =>
    by_cases h : set.contains a = true
    · simp only [if_pos h, List.mem_singleton, Cursor.mk.injEq]
      constructor
      · rintro ⟨rfl, rfl⟩
        exact ⟨a, rfl, h, rfl⟩
      · rintro ⟨b, hb, -, rfl⟩
        exact ⟨rfl, (List.cons.inj hb).2.symm⟩
    · simp only [if_neg h, List.not_mem_nil, false_iff]
      rintro ⟨b, hb, hs, -⟩
      exact h ((List.cons.inj hb).1 ▸ hs)

theorem mem_ends_finish {c d : Cursor} : d ∈ Pattern.finish.ends c ↔ c.rest = [] ∧ d = c := by
  unfold ends
  cases c.rest <;> simp

theorem contains_literal {a b : Char} :
    (CharSet.mk false [.range a a]).contains b = true ↔ b = a := by
  simp only [CharSet.contains, SetItem.contains, List.any_cons, List.any_nil, Bool.or_false,
    Bool.false_bne, Bool.and_eq_true, decide_eq_true_eq]
  exact ⟨fun h => Char.le_antisymm h.2 h.1, fun h => h ▸ ⟨Char.le_refl b, Char.le_refl b⟩⟩

theorem mem_ends_literal {a : Char} {c d : Cursor} :
    d ∈ (literal a).ends c ↔ c.rest = a :: d.rest ∧ d.moved = true := by
  unfold literal
  rw [mem_ends_one]
  constructor
  · rintro ⟨b, hb, hs, hm⟩
    exact ⟨contains_literal.mp hs ▸ hb, hm⟩
  · rintro ⟨hr, hm⟩
    exact ⟨a, hr, contains_literal.mpr rfl, hm⟩

/-- A match begins at a place. -/
def MatchesAt (p : Pattern) (moved : Bool) (cs : List Char) : Prop := ∃ d, d ∈ p.ends ⟨moved, cs⟩

theorem matchesAt_literal {a : Char} {p : Pattern} {moved : Bool} {cs : List Char} :
    (Pattern.seq (literal a) p).MatchesAt moved cs ↔
      ∃ rest, cs = a :: rest ∧ p.MatchesAt true rest := by
  constructor
  · rintro ⟨d, hd⟩
    obtain ⟨⟨m, rest⟩, he, hd⟩ := mem_ends_seq.mp hd
    obtain ⟨hr, rfl⟩ := mem_ends_literal.mp he
    exact ⟨rest, hr, d, hd⟩
  · rintro ⟨rest, rfl, d, hd⟩
    exact ⟨d, mem_ends_seq.mpr ⟨_, mem_ends_literal.mpr ⟨rfl, rfl⟩, hd⟩⟩

/-- The characters one after the other, then `p`. -/
def after (cs : List Char) (p : Pattern) : Pattern := cs.foldr (fun a q => .seq (literal a) q) p

theorem matchesAt_after {a : Char} {as cs : List Char} {p : Pattern} {moved : Bool} :
    (after (a :: as) p).MatchesAt moved cs ↔
      ∃ rest, cs = a :: as ++ rest ∧ p.MatchesAt true rest := by
  induction as generalizing a cs moved with
  | nil => exact matchesAt_literal
  | cons b bs ih =>
    show (Pattern.seq (literal a) (after (b :: bs) p)).MatchesAt moved cs ↔ _
    rw [matchesAt_literal]
    constructor
    · rintro ⟨tail, rfl, h⟩
      obtain ⟨rest, rfl, hp⟩ := ih.mp h
      exact ⟨rest, rfl, hp⟩
    · rintro ⟨rest, rfl, h⟩
      exact ⟨b :: bs ++ rest, rfl, ih.mpr ⟨rest, rfl, h⟩⟩

/-- A character that may be left out, then `p`. -/
theorem matchesAt_optional {a : Char} {p : Pattern} {cs : List Char} :
    (Pattern.seq (.alt (literal a) .empty) p).MatchesAt true cs ↔
      (∃ rest, cs = a :: rest ∧ p.MatchesAt true rest) ∨ p.MatchesAt true cs := by
  constructor
  · rintro ⟨d, hd⟩
    obtain ⟨⟨m, rest⟩, he, hd⟩ := mem_ends_seq.mp hd
    rcases List.mem_append.mp he with he | he
    · obtain ⟨hr, rfl⟩ := mem_ends_literal.mp he
      exact Or.inl ⟨rest, hr, d, hd⟩
    · cases List.mem_singleton.mp he
      exact Or.inr ⟨d, hd⟩
  · rintro (⟨rest, hr, d, hd⟩ | ⟨d, hd⟩)
    · have he : (⟨true, rest⟩ : Cursor) ∈ (literal a).ends ⟨true, cs⟩ :=
        mem_ends_literal.mpr ⟨hr, rfl⟩
      exact ⟨d, mem_ends_seq.mpr ⟨_, List.mem_append_left _ he, hd⟩⟩
    · have he : (⟨true, cs⟩ : Cursor) ∈ Pattern.empty.ends ⟨true, cs⟩ := List.mem_singleton.mpr rfl
      exact ⟨d, mem_ends_seq.mpr ⟨_, List.mem_append_right _ he, hd⟩⟩

/-- Some number of steps over characters of a set can take in all that is left
exactly if all that is left is in the set. -/
theorem exists_iterate_rest_nil {set : CharSet} {n : Nat} {c : Cursor} (hn : c.rest.length ≤ n) :
    (∃ d ∈ iterate (Pattern.one set).ends n c, d.rest = []) ↔
      ∀ x ∈ c.rest, set.contains x = true := by
  induction n generalizing c with
  | zero =>
    have hc : c.rest = [] := List.length_eq_zero_iff.mp (Nat.le_zero.mp hn)
    simp [iterate, hc]
  | succ n ih =>
    unfold iterate
    constructor
    · rintro ⟨d, hd, hr⟩
      rcases List.mem_cons.mp hd with rfl | hd
      · simp [hr]
      · obtain ⟨e, he, hd⟩ := List.mem_flatMap.mp hd
        obtain ⟨a, ha, hs, -⟩ := mem_ends_one.mp (List.mem_filter.mp he).1
        have hl : e.rest.length ≤ n := by rw [ha, List.length_cons] at hn; omega
        rw [ha, List.forall_mem_cons]
        exact ⟨hs, (ih hl).mp ⟨d, hd, hr⟩⟩
    · intro h
      cases hc : c.rest with
      | nil => exact ⟨c, List.mem_cons_self, hc⟩
      | cons a as =>
        rw [hc, List.forall_mem_cons] at h
        have hl : as.length ≤ n := by rw [hc, List.length_cons] at hn; omega
        obtain ⟨d, hd, hr⟩ := (ih (c := ⟨true, as⟩) hl).mpr h.2
        refine ⟨d, List.mem_cons_of_mem _ (List.mem_flatMap.mpr ⟨⟨true, as⟩, ?_, hd⟩), hr⟩
        rw [List.mem_filter, decide_eq_true_eq]
        refine ⟨mem_ends_one.mpr ⟨a, hc, h.1, rfl⟩, ?_⟩
        show as.length < (a :: as).length
        rw [List.length_cons]
        omega

/-- A pattern that is tied to the start of a text occurs only there. -/
theorem occursIn_start {p : Pattern} {s : String} :
    (Pattern.seq .start p).occursIn s = true ↔ p.MatchesAt false s.toList := by
  have hmoved : ∀ cs, (Pattern.seq .start p).ends ⟨true, cs⟩ = [] := fun _ => rfl
  have hlater : ∀ cs, (Pattern.seq .start p).occursAt true cs = false := by
    intro cs
    induction cs with
    | nil => rw [occursAt, hmoved]; rfl
    | cons a cs ih => rw [occursAt, hmoved, ih]; rfl
  have hfirst : ∀ cs, (Pattern.seq .start p).ends ⟨false, cs⟩ = p.ends ⟨false, cs⟩ :=
    fun cs => List.append_nil _
  have hnil : ∀ ds : List Cursor, (!ds.isEmpty) = true ↔ ∃ d, d ∈ ds := by
    intro ds
    cases ds <;> simp
  unfold occursIn MatchesAt
  cases s.toList with
  | nil => rw [occursAt, hfirst, hnil]
  | cons a cs => rw [occursAt, hfirst, hlater, Bool.or_false, hnil]

end Pattern

/-! ## The pattern of links -/

namespace Links

open Pattern

/-- Characters that an address may begin with after its scheme. -/
def hostStart : CharSet :=
  ⟨true, [.blank, .range '/' '/', .range '$' '$', .range '.' '.', .range '?' '?', .range '#' '#']⟩

/-- Characters of an address. -/
def addressChar : CharSet := ⟨true, [.blank]⟩

/-- What follows the scheme, to the end of the text. -/
def webRest : Pattern := .seq (.one hostStart) (.seq (.star (.one addressChar)) .finish)

/-- The pattern that `webAddress` stands for. -/
def webPattern : Pattern :=
  .seq .start <| after ['h', 't', 't', 'p'] <|
    .seq (.alt (literal 's') .empty) <| after [':', '/', '/'] webRest

theorem ofString_webAddress : Pattern.ofString webAddress = .ok webPattern := by
  rfl

theorem contains_addressChar {c : Char} :
    addressChar.contains c = true ↔ Text.isBlank c = false := by
  simp [addressChar, CharSet.contains, SetItem.contains]

theorem contains_hostStart {c : Char} :
    hostStart.contains c = true ↔ Text.isBlank c = false ∧ c ∉ ['/', '$', '.', '?', '#'] := by
  have hsingle : ∀ a : Char, (SetItem.range a a).contains c = true ↔ c = a := fun a => by
    rw [← contains_literal]
    simp [CharSet.contains]
  have hnot : ∀ a : Char, (SetItem.range a a).contains c = false ↔ c ≠ a := fun a => by
    rw [← Bool.not_eq_true, hsingle]
  simp only [hostStart, CharSet.contains, List.any_cons, List.any_nil, Bool.or_false,
    Bool.true_bne, Bool.not_eq_true', Bool.or_eq_false_iff, hnot, List.mem_cons, List.not_mem_nil,
    or_false, not_or]
  rfl

theorem matchesAt_addressChars {cs : List Char} :
    (Pattern.seq (.star (.one addressChar)) .finish).MatchesAt true cs ↔
      ∀ x ∈ cs, Text.isBlank x = false := by
  have h : (∃ d ∈ iterate (Pattern.one addressChar).ends cs.length ⟨true, cs⟩, d.rest = []) ↔
      ∀ x ∈ cs, addressChar.contains x = true := exists_iterate_rest_nil (Nat.le_refl _)
  simp only [contains_addressChar] at h
  rw [← h]
  constructor
  · rintro ⟨d, hd⟩
    obtain ⟨e, he, hf⟩ := mem_ends_seq.mp hd
    exact ⟨e, he, (mem_ends_finish.mp hf).1⟩
  · rintro ⟨e, he, hr⟩
    exact ⟨e, mem_ends_seq.mpr ⟨e, he, mem_ends_finish.mpr ⟨hr, rfl⟩⟩⟩

theorem matchesAt_webRest {moved : Bool} {cs : List Char} :
    webRest.MatchesAt moved cs ↔ ∃ c rest, cs = c :: rest ∧
      c ∉ ['/', '$', '.', '?', '#'] ∧ ∀ x ∈ c :: rest, Text.isBlank x = false := by
  constructor
  · rintro ⟨d, hd⟩
    obtain ⟨⟨m, rest⟩, he, hd⟩ := mem_ends_seq.mp hd
    obtain ⟨c, hc, hs, rfl⟩ := mem_ends_one.mp he
    rw [contains_hostStart] at hs
    refine ⟨c, rest, hc, hs.2, ?_⟩
    rw [List.forall_mem_cons]
    exact ⟨hs.1, matchesAt_addressChars.mp ⟨d, hd⟩⟩
  · rintro ⟨c, rest, rfl, hs, hb⟩
    rw [List.forall_mem_cons] at hb
    obtain ⟨d, hd⟩ := matchesAt_addressChars.mpr hb.2
    have hc : (⟨true, rest⟩ : Cursor) ∈ (Pattern.one hostStart).ends ⟨moved, c :: rest⟩ :=
      mem_ends_one.mpr ⟨c, rfl, contains_hostStart.mpr ⟨hb.1, hs⟩, rfl⟩
    exact ⟨d, mem_ends_seq.mpr ⟨_, hc, hd⟩⟩

/-- The pattern accepts exactly the web addresses. -/
theorem occursIn_webPattern {url : String} : webPattern.occursIn url = true ↔ WebAddress url := by
  unfold webPattern WebAddress
  rw [occursIn_start, matchesAt_after]
  constructor
  · rintro ⟨tail, hr, h⟩
    rcases matchesAt_optional.mp h with ⟨marks, rfl, hm⟩ | hm
    · obtain ⟨address, rfl, ha⟩ := matchesAt_after.mp hm
      obtain ⟨c, rest, rfl, hs, hb⟩ := matchesAt_webRest.mp ha
      exact ⟨"https://", by simp, c, rest, hr, hs, hb⟩
    · obtain ⟨address, rfl, ha⟩ := matchesAt_after.mp hm
      obtain ⟨c, rest, rfl, hs, hb⟩ := matchesAt_webRest.mp ha
      exact ⟨"http://", by simp, c, rest, hr, hs, hb⟩
  · rintro ⟨scheme, hscheme, c, rest, hr, hs, hb⟩
    have hrest : webRest.MatchesAt true (c :: rest) := matchesAt_webRest.mpr ⟨c, rest, rfl, hs, hb⟩
    have hmarks : (after [':', '/', '/'] webRest).MatchesAt true (':' :: '/' :: '/' :: c :: rest) :=
      matchesAt_after.mpr ⟨c :: rest, rfl, hrest⟩
    rcases List.mem_cons.mp hscheme with rfl | hscheme
    · exact ⟨_, hr, matchesAt_optional.mpr (Or.inr hmarks)⟩
    · cases List.mem_singleton.mp hscheme
      exact ⟨_, hr, matchesAt_optional.mpr (Or.inl ⟨_, rfl, hmarks⟩)⟩

instance : DecidablePred WebAddress := fun _ => decidable_of_iff _ occursIn_webPattern

/-- Looking for malformed links never fails, and finds all that are no web addresses. -/
theorem malformed_eq (l : Links) :
    l.malformed =
      .ok ((l.addresses.entries.filter fun e => !webPattern.occursIn e.2).map Prod.fst) := by
  unfold malformed notMatching
  rw [ofString_webAddress]
  rfl

end Links

end SignedDocs
