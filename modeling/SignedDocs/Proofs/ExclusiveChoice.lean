import Mathlib.Data.List.Nodup
import Mathlib.Data.List.Pairwise
import SignedDocs.Proofs.GroupSynthesis
import SignedDocs.Proofs.GroupText

/-!
Exclusion in synthesized groups: what a group admits, and when it keeps headers
apart that exclude each other.

* `Group.Admits`: the entries that may stand together.
* `Group.offered`: the parts of a synthesized group are the circles of the live
  headers, each once.
* `synthesize_apart_iff`: the text of a definition shows its group; exclusion is kept, no
  header comes twice and every live header has one place, each of them exactly if exclusion
  is transitive.

Loading only asks for symmetry, so that headers can overlap: if `a` excludes `b` and
`b` excludes `c` only, there is a choice for each of `a`, `b` and `c`, and `a` and
`b` can be taken from different ones.
-/

namespace SignedDocs.Cddl

/-! ## Selections -/

/-- What may be taken of a part: its only entry, which may be left out if it is
optional, or at most one entry of a choice. -/
def Part.Allows : Part → Option Entry → Prop
  | .plain _ e, some x => x = e
  | .plain optional _, none => optional = true
  | .choice es, some x => x ∈ es
  | .choice _, none => True

namespace Group

/-- Entries that may stand together, one step for each part. -/
inductive Admits : Group → List Entry → Prop where
  | nil : Admits [] []
  | cons {p : Part} {g : Group} {taken : Option Entry} {es : List Entry} (allowed : p.Allows taken)
      (rest : Admits g es) : Admits (p :: g) (taken.toList ++ es)

theorem mem_entries_of_allows {p : Part} {e : Entry} (h : p.Allows (some e)) : e ∈ p.entries := by
  cases p with
  | plain optional x => exact List.mem_singleton.mpr h
  | choice xs => exact h

theorem allows_of_mem_entries {p : Part} {e : Entry} (h : e ∈ p.entries) : p.Allows (some e) := by
  cases p with
  | plain optional x => exact List.mem_singleton.mp h
  | choice xs => exact h

/-- Something is allowed of every part. -/
theorem exists_allows (p : Part) : ∃ taken, p.Allows taken := by
  cases p with
  | plain optional x => exact ⟨some x, rfl⟩
  | choice xs => exact ⟨none, trivial⟩

theorem exists_admits (g : Group) : ∃ es, Admits g es := by
  induction g with
  | nil => exact ⟨[], .nil⟩
  | cons p g ih =>
    obtain ⟨es, hes⟩ := ih
    obtain ⟨taken, ht⟩ := exists_allows p
    exact ⟨_, .cons ht hes⟩

/-- Every entry of a group can be taken. -/
theorem exists_admits_mem {g : Group} {p : Part} {e : Entry} (hp : p ∈ g) (he : e ∈ p.entries) :
    ∃ es, Admits g es ∧ e ∈ es := by
  induction g with
  | nil => cases hp
  | cons q g ih =>
    rcases List.mem_cons.mp hp with rfl | hpg
    · obtain ⟨es, hes⟩ := exists_admits g
      exact ⟨_, .cons (allows_of_mem_entries he) hes, List.mem_cons_self⟩
    · obtain ⟨es, hes, hmem⟩ := ih hpg
      obtain ⟨taken, ht⟩ := exists_allows q
      exact ⟨_, .cons ht hes, List.mem_append_right _ hmem⟩

theorem mem_of_admits {g : Group} {es : List Entry} (h : Admits g es) {e : Entry} (he : e ∈ es) :
    ∃ p ∈ g, e ∈ p.entries := by
  induction h with
  | nil => cases he
  | @cons p g taken es allowed rest ih =>
    rcases List.mem_append.mp he with ht | hes
    · cases taken with
      | none => cases ht
      | some x =>
        cases List.mem_singleton.mp ht
        exact ⟨p, List.mem_cons_self, mem_entries_of_allows allowed⟩
    · obtain ⟨q, hq, hmem⟩ := ih hes
      exact ⟨q, List.mem_cons_of_mem p hq, hmem⟩

/-- What is taken from different parts is apart in every selection exactly if all
entries of different parts are. -/
theorem forall_admits_pairwise_iff {R : Entry → Entry → Prop} {g : Group} :
    (∀ es, Admits g es → es.Pairwise R) ↔
      g.Pairwise fun p q => ∀ e ∈ p.entries, ∀ f ∈ q.entries, R e f := by
  induction g with
  | nil =>
    refine ⟨fun _ => .nil, fun _ es h => ?_⟩
    cases h
    exact .nil
  | cons p g ih =>
    rw [List.pairwise_cons, ← ih]
    constructor
    · intro H
      refine ⟨?_, ?_⟩
      · intro q hq e he f hf
        obtain ⟨es, hes, hmem⟩ := exists_admits_mem hq hf
        have hpair := H _ (.cons (allows_of_mem_entries he) hes)
        exact (List.pairwise_cons.mp hpair).1 f hmem
      · intro es hes
        obtain ⟨taken, ht⟩ := exists_allows p
        exact (List.pairwise_append.mp (H _ (.cons ht hes))).2.1
    · rintro ⟨hhead, htail⟩ es h
      cases h with
      | @cons _ _ taken es allowed rest =>
        cases taken with
        | none => exact htail es rest
        | some x =>
          refine List.pairwise_cons.mpr ⟨?_, htail es rest⟩
          intro f hf
          obtain ⟨q, hq, hmem⟩ := mem_of_admits rest hf
          exact hhead q hq x (mem_entries_of_allows allowed) f hmem

/-! ## Parts of a synthesized group -/

/-- Names of the headers that each part offers. -/
def offered (g : Group) : List (List String) := g.map fun p => p.entries.map Entry.header

theorem map_header_entries (g : Group) : g.entries.map Entry.header = g.offered.flatten := by
  unfold entries offered
  rw [List.flatMap_def, List.map_flatten, List.map_map]
  rfl

theorem header_of_entryOf {formats : Formats} {h : Header} {e : Entry}
    (he : entryOf formats h = .ok e) : e.header = h.name := by
  obtain ⟨f, -, rfl⟩ := entryOf_eq_ok_iff.mp he
  rfl

theorem map_header_of_mapM {formats : Formats} {hs : List Header} {es : List Entry}
    (h : hs.mapM (entryOf formats) = .ok es) : es.map Entry.header = hs.map Scoped.name :=
  map_eq_of_mapM_ok (fun _ _ => header_of_entryOf) h

/-- Names that the plain part of a header offers, if it has one. -/
def plainNames (live : List Header) (h : Header) : Option (List String) :=
  if isAlone live h then some [h.name] else none

theorem offered_of_plainOf {headers : List Header} {formats : Formats} {h : Header}
    {part : Option Part} (hp : plainOf headers formats h = .ok part) :
    part.map (fun p => p.entries.map Entry.header) = plainNames (live headers) h := by
  have hpart := (plainOf_eq_ok_iff.mp hp).2
  unfold plainNames
  by_cases ha : isAlone (live headers) h = true
  · rw [if_pos ha] at hpart ⊢
    obtain ⟨e, he, rfl⟩ := hpart
    simp [Part.entries, header_of_entryOf he]
  · rw [if_neg ha] at hpart ⊢
    rw [← hpart]
    rfl

/-- The parts of a group: the headers that are alone, then the circles of the others. -/
theorem offered_ofHeaders {headers : List Header} {formats : Formats} {g : Group}
    (h : ofHeaders headers formats = .ok g) :
    g.offered = (live headers).filterMap (plainNames (live headers)) ++
      (circles headers).map (List.map Scoped.name) := by
  obtain ⟨plain, choices, hp, hc, rfl⟩ := ofHeaders_eq_ok_iff.mp h
  have hplain := map_eq_of_mapM_ok (fun _ _ => offered_of_plainOf) hp
  have hchoices := map_eq_of_mapM_ok (fun _ _ => map_header_of_mapM) hc
  unfold offered
  rw [List.map_append, List.map_map, ← hchoices, List.map_filterMap]
  congr 1
  have hid := congrArg (List.filterMap id) hplain
  rw [List.filterMap_map, List.filterMap_map] at hid
  exact hid

/-! ## Circles -/

theorem mem_circle {live : List Header} {h x : Header} :
    x ∈ circle live h ↔ x ∈ live ∧ (x.name = h.name ∨ x.name ∈ h.record.exclusive) := by
  simp [circle]

theorem self_mem_circle {live : List Header} {h : Header} (hl : h ∈ live) : h ∈ circle live h :=
  mem_circle.mpr ⟨hl, Or.inl rfl⟩

/-- A choice has at least the entry of the header that it was made for. -/
theorem choosable_ofHeaders {headers : List Header} {formats : Formats} {g : Group}
    (hg : ofHeaders headers formats = .ok g) : g.Choosable := by
  intro es hes
  obtain ⟨plain, choices, hplain, hchoices, rfl⟩ := ofHeaders_eq_ok_iff.mp hg
  rcases List.mem_append.mp hes with hes | hes
  · obtain ⟨part, hpart, rfl⟩ := List.mem_filterMap.mp hes
    obtain ⟨h, -, hh⟩ := exists_of_mem_mapM hplain hpart
    have hsome := (plainOf_eq_ok_iff.mp hh).2
    split at hsome
    · obtain ⟨e, -, he⟩ := hsome
      cases he
    · cases hsome
  · obtain ⟨es', hmem, hsame⟩ := List.mem_map.mp hes
    cases hsame
    obtain ⟨c, hc, hentries⟩ := exists_of_mem_mapM hchoices hmem
    obtain ⟨h, hh, rfl⟩ := exists_of_mem_circles hc
    obtain ⟨e, he, -⟩ := exists_mem_of_mapM hentries (self_mem_circle hh)
    exact List.ne_nil_of_mem he

theorem circle_of_isAlone {live : List Header} {h : Header} (hl : h ∈ live)
    (ha : isAlone live h = true) : circle live h = [h] := by
  obtain ⟨x, hx⟩ := List.length_eq_one_iff.mp (beq_iff_eq.mp ha)
  have hmem := self_mem_circle hl
  rw [hx] at hmem ⊢
  rw [List.mem_singleton.mp hmem]

theorem map_name_addNew (seen : List (List Header)) (c : List Header) :
    (addNew seen c).map (List.map Scoped.name) =
      if c.map Scoped.name ∈ seen.map (List.map Scoped.name) then seen.map (List.map Scoped.name)
      else seen.map (List.map Scoped.name) ++ [c.map Scoped.name] := by
  have hany : (seen.any fun d => d.map Scoped.name == c.map Scoped.name) = true ↔
      c.map Scoped.name ∈ seen.map (List.map Scoped.name) := by
    simp [List.any_eq_true]
  unfold addNew
  by_cases hc : c.map Scoped.name ∈ seen.map (List.map Scoped.name)
  · rw [if_pos hc, if_pos (hany.mpr hc)]
  · rw [if_neg hc, if_neg (fun h => hc (hany.mp h)), List.map_append]
    rfl

theorem nodup_foldl_addNew {seen cs : List (List Header)}
    (h : (seen.map (List.map Scoped.name)).Nodup) :
    ((cs.foldl addNew seen).map (List.map Scoped.name)).Nodup := by
  induction cs generalizing seen with
  | nil => exact h
  | cons c cs ih =>
    refine ih ?_
    rw [map_name_addNew]
    split
    · exact h
    · rename_i hc
      rw [List.nodup_append]
      refine ⟨h, List.nodup_singleton _, ?_⟩
      intro a ha b hb hab
      rw [List.mem_singleton.mp hb] at hab
      exact hc (hab ▸ ha)

theorem mem_foldl_addNew {seen cs : List (List Header)} {ns : List String} :
    ns ∈ (cs.foldl addNew seen).map (List.map Scoped.name) ↔
      ns ∈ seen.map (List.map Scoped.name) ∨ ns ∈ cs.map (List.map Scoped.name) := by
  induction cs generalizing seen with
  | nil => simp
  | cons c cs ih =>
    rw [List.foldl_cons, ih, map_name_addNew, List.map_cons, List.mem_cons]
    split
    · rename_i hc
      constructor
      · rintro (h | h)
        · exact Or.inl h
        · exact Or.inr (Or.inr h)
      · rintro (h | rfl | h)
        · exact Or.inl h
        · exact Or.inl hc
        · exact Or.inr h
    · rw [List.mem_append, List.mem_singleton, or_assoc]

theorem mem_map_circles {headers : List Header} {ns : List String} :
    ns ∈ (circles headers).map (List.map Scoped.name) ↔
      ∃ h ∈ live headers, isAlone (live headers) h = false ∧
        (circle (live headers) h).map Scoped.name = ns := by
  unfold circles
  rw [distinctNames_eq, mem_foldl_addNew]
  simp [and_assoc]

section Parts

variable {headers : List Header} {formats : Formats} {g : Group}

/-- The parts of a group are the circles of the live headers. -/
theorem mem_offered (hg : ofHeaders headers formats = .ok g) {ns : List String} :
    ns ∈ g.offered ↔ ∃ h ∈ live headers, (circle (live headers) h).map Scoped.name = ns := by
  rw [offered_ofHeaders hg, List.mem_append, mem_map_circles, List.mem_filterMap]
  unfold plainNames
  constructor
  · rintro (⟨h, hl, hn⟩ | ⟨h, hl, -, hn⟩)
    · by_cases ha : isAlone (live headers) h = true
      · rw [if_pos ha] at hn
        cases hn
        exact ⟨h, hl, by rw [circle_of_isAlone hl ha]; rfl⟩
      · rw [if_neg ha] at hn
        cases hn
    · exact ⟨h, hl, hn⟩
  · rintro ⟨h, hl, hn⟩
    by_cases ha : isAlone (live headers) h = true
    · refine Or.inl ⟨h, hl, ?_⟩
      rw [if_pos ha, ← hn, circle_of_isAlone hl ha]
      rfl
    · exact Or.inr ⟨h, hl, by simpa using ha, hn⟩

theorem nodup_map_name_live (hd : (headers.map Scoped.name).Nodup) :
    ((live headers).map Scoped.name).Nodup :=
  (List.filter_sublist.map Scoped.name).nodup hd

/-- No two parts of a group offer the same names. -/
theorem nodup_offered (hd : (headers.map Scoped.name).Nodup)
    (hg : ofHeaders headers formats = .ok g) : g.offered.Nodup := by
  rw [offered_ofHeaders hg, List.nodup_append]
  refine ⟨?_, nodup_foldl_addNew List.nodup_nil, ?_⟩
  · refine List.pairwise_filterMap.mpr ((List.pairwise_map.mp (nodup_map_name_live hd)).imp ?_)
    intro a b hab ns hns ms hms he
    unfold plainNames at hns hms
    split at hns <;> cases hns
    split at hms <;> cases hms
    exact hab (List.singleton_inj.mp he)
  · intro ns hns ms hms he
    obtain ⟨a, -, ha⟩ := List.mem_filterMap.mp hns
    obtain ⟨b, -, hb, hbn⟩ := mem_map_circles.mp hms
    unfold plainNames at ha
    split at ha <;> cases ha
    have hlen := congrArg List.length (hbn.trans he.symm)
    rw [List.length_map, List.length_singleton] at hlen
    simp [isAlone, hlen] at hb

end Parts

/-! ## Overlapping circles -/

/-- Exclusion goes both ways. -/
def ExclusionMutual (headers : List Header) : Prop :=
  ∀ x ∈ headers, ∀ y ∈ headers, y.name ∈ x.record.exclusive → x.name ∈ y.record.exclusive

/-- Two headers exclude each other. -/
def Excludes (headers : List Header) (a b : String) : Prop :=
  ∃ x ∈ headers, ∃ y ∈ headers, x.name = a ∧ y.name = b ∧ y.name ∈ x.record.exclusive

/-- Live headers that exclude the same one exclude each other. -/
def ExclusionTransitive (headers : List Header) : Prop :=
  ∀ x ∈ live headers, ∀ y ∈ live headers, ∀ z ∈ live headers,
    y.name ∈ x.record.exclusive → z.name ∈ y.record.exclusive → z.name ≠ x.name →
      z.name ∈ x.record.exclusive

/-- The same header, or one that it excludes. -/
def Near (x y : Header) : Prop := y.name = x.name ∨ y.name ∈ x.record.exclusive

theorem mem_of_mem_live {headers : List Header} {h : Header} (hl : h ∈ live headers) :
    h ∈ headers := (List.mem_filter.mp hl).1

section Overlap

variable {headers : List Header} {x y z : Header}

theorem eq_of_name (hd : (headers.map Scoped.name).Nodup) (hx : x ∈ headers) (hy : y ∈ headers)
    (h : x.name = y.name) : x = y := List.inj_on_of_nodup_map hd hx hy h

theorem Excludes.symm (hm : ExclusionMutual headers) {a b : String} (h : Excludes headers a b) :
    Excludes headers b a := by
  obtain ⟨x, hx, y, hy, rfl, rfl, he⟩ := h
  exact ⟨y, hy, x, hx, rfl, rfl, hm x hx y hy he⟩

theorem Near.symm (hm : ExclusionMutual headers) (hx : x ∈ headers) (hy : y ∈ headers)
    (h : Near x y) : Near y x := by
  rcases h with h | h
  · exact Or.inl h.symm
  · exact Or.inr (hm x hx y hy h)

theorem Near.trans (hd : (headers.map Scoped.name).Nodup) (ht : ExclusionTransitive headers)
    (hx : x ∈ live headers) (hy : y ∈ live headers) (hz : z ∈ live headers) (h : Near x y)
    (h' : Near y z) : Near x z := by
  rcases h with h | h
  · rw [← eq_of_name hd (mem_of_mem_live hy) (mem_of_mem_live hx) h]
    exact h'
  · rcases h' with hyz | hyz
    · rw [eq_of_name hd (mem_of_mem_live hz) (mem_of_mem_live hy) hyz]
      exact Or.inr h
    · by_cases hzx : z.name = x.name
      · exact Or.inl hzx
      · exact Or.inr (ht x hx y hy z hz h hyz hzx)

/-- Headers that are near each other have the same circle if exclusion is transitive. -/
theorem circle_eq_of_near (hd : (headers.map Scoped.name).Nodup) (hm : ExclusionMutual headers)
    (ht : ExclusionTransitive headers) (hx : x ∈ live headers) (hy : y ∈ live headers)
    (h : Near x y) : circle (live headers) x = circle (live headers) y := by
  have hyx : Near y x := h.symm hm (mem_of_mem_live hx) (mem_of_mem_live hy)
  refine List.filter_congr fun z hz => ?_
  have hiff : Near x z ↔ Near y z :=
    ⟨fun hxz => hyx.trans hd ht hy hx hz hxz, fun hyz => h.trans hd ht hx hy hz hyz⟩
  rw [Bool.eq_iff_iff]
  simpa [Near] using hiff

variable {formats : Formats} {g : Group}

/-- If exclusion is transitive, names of different parts are different and do not
exclude each other. -/
theorem offered_apart (hd : (headers.map Scoped.name).Nodup) (hm : ExclusionMutual headers)
    (ht : ExclusionTransitive headers) (hg : ofHeaders headers formats = .ok g) :
    g.offered.Pairwise fun ns ms => ∀ a ∈ ns, ∀ b ∈ ms, a ≠ b ∧ ¬Excludes headers a b := by
  refine (nodup_offered hd hg).imp_of_mem ?_
  intro ns ms hns hms hne a ha b hb
  obtain ⟨h, hh, rfl⟩ := (mem_offered hg).mp hns
  obtain ⟨k, hk, rfl⟩ := (mem_offered hg).mp hms
  obtain ⟨x, hx, rfl⟩ := List.mem_map.mp ha
  obtain ⟨y, hy, rfl⟩ := List.mem_map.mp hb
  obtain ⟨hxl, hhx⟩ := mem_circle.mp hx
  obtain ⟨hyl, hky⟩ := mem_circle.mp hy
  have hapart : ¬Near x y := by
    intro hxy
    have hyk : Near y k := Near.symm hm (mem_of_mem_live hk) (mem_of_mem_live hyl) hky
    have hhk : Near h k := Near.trans hd ht hh hyl hk (Near.trans hd ht hh hxl hyl hhx hxy) hyk
    exact hne (congrArg _ (circle_eq_of_near hd hm ht hh hk hhk))
  refine ⟨fun he => hapart (Or.inl he.symm), ?_⟩
  rintro ⟨x', hx', y', hy', hxn, hyn, he⟩
  rw [eq_of_name hd hx' (mem_of_mem_live hxl) hxn, hyn] at he
  exact hapart (Or.inr he)

/-- A relation that holds between different parts makes exclusion transitive if it
never holds both between headers that exclude each other and of a header and itself. -/
theorem transitive_of_apart {R : String → String → Prop} (hsymm : ∀ a b, R a b → R b a)
    (hR : ∀ x ∈ headers, ∀ y ∈ headers, x.name ≠ y.name → y.name ∈ x.record.exclusive →
      R x.name y.name → ¬R y.name y.name)
    (hd : (headers.map Scoped.name).Nodup) (hg : ofHeaders headers formats = .ok g)
    (h : g.offered.Pairwise fun ns ms => ∀ a ∈ ns, ∀ b ∈ ms, R a b) :
    ExclusionTransitive headers := by
  intro x hx y hy z hz hxy hyz hzx
  apply Classical.byContradiction
  intro hxz
  -- the circle of `y` has all three headers, that of `x` only two of them
  let inX := (circle (live headers) x).map Scoped.name
  let inY := (circle (live headers) y).map Scoped.name
  have hyX : y.name ∈ inX := List.mem_map_of_mem (mem_circle.mpr ⟨hy, Or.inr hxy⟩)
  have hyY : y.name ∈ inY := List.mem_map_of_mem (self_mem_circle hy)
  have hxX : x.name ∈ inX := List.mem_map_of_mem (self_mem_circle hx)
  have hzY : z.name ∈ inY := List.mem_map_of_mem (mem_circle.mpr ⟨hz, Or.inr hyz⟩)
  have hzX : z.name ∉ inX := by
    intro hz'
    obtain ⟨w, hw, hwn⟩ := List.mem_map.mp hz'
    rcases (mem_circle.mp hw).2 with hwx | hwx
    · exact hzx (hwn.symm.trans hwx)
    · exact hxz (hwn ▸ hwx)
  have hne : inX ≠ inY := fun he => hzX (he ▸ hzY)
  have hall : ∀ a ∈ inX, ∀ b ∈ inY, R a b := by
    have : Std.Symm fun ns ms : List String => ∀ a ∈ ns, ∀ b ∈ ms, R a b :=
      ⟨fun ns ms hnm b hb a ha => hsymm a b (hnm a ha b hb)⟩
    exact h.forall ((mem_offered hg).mpr ⟨x, hx, rfl⟩) ((mem_offered hg).mpr ⟨y, hy, rfl⟩) hne
  have hxny : x.name ≠ y.name := by
    intro he
    rw [eq_of_name hd (mem_of_mem_live hx) (mem_of_mem_live hy) he] at hxz
    exact hxz hyz
  exact hR x (mem_of_mem_live hx) y (mem_of_mem_live hy) hxny hxy (hall _ hxX _ hyY)
    (hall _ hyX _ hyY)

/-! ## Exclusion in selections -/

/-- What is taken together, put into the terms of the parts. -/
theorem forall_admits_names_iff {R : String → String → Prop} :
    (∀ es, Admits g es → es.Pairwise fun e f => R e.header f.header) ↔
      g.offered.Pairwise fun ns ms => ∀ a ∈ ns, ∀ b ∈ ms, R a b := by
  rw [forall_admits_pairwise_iff, offered, List.pairwise_map]
  simp only [List.forall_mem_map]

theorem admits_apart_iff (hd : (headers.map Scoped.name).Nodup) (hm : ExclusionMutual headers)
    (hg : ofHeaders headers formats = .ok g) :
    (∀ es, Admits g es → ∀ e ∈ es, ∀ f ∈ es, e.header ≠ f.header →
      ¬Excludes headers e.header f.header) ↔ ExclusionTransitive headers := by
  constructor
  · intro h
    have hnames := (forall_admits_names_iff (R := fun a b => a ≠ b → ¬Excludes headers a b)).mp
      fun es hes => List.pairwise_of_forall_mem_list (h es hes)
    refine transitive_of_apart ?_ ?_ hd hg hnames
    · intro a b hab hne he
      exact hab hne.symm (he.symm hm)
    · intro x hx y hy hne hxy hR
      exact absurd ⟨x, hx, y, hy, rfl, rfl, hxy⟩ (hR hne)
  · intro ht es hes
    have hpair := forall_admits_names_iff.mpr ((offered_apart hd hm ht hg).imp
      fun H a ha b hb => fun _ : a ≠ b => (H a ha b hb).2) es hes
    have : Std.Symm fun e f : Entry => e.header ≠ f.header → ¬Excludes headers e.header f.header :=
      ⟨fun e f hef hne he => hef hne.symm (he.symm hm)⟩
    exact hpair.forall_of_forall fun e _ hne => absurd rfl hne

theorem offered_ne_iff (hd : (headers.map Scoped.name).Nodup) (hm : ExclusionMutual headers)
    (hg : ofHeaders headers formats = .ok g) :
    (g.offered.Pairwise fun ns ms => ∀ a ∈ ns, ∀ b ∈ ms, a ≠ b) ↔ ExclusionTransitive headers := by
  constructor
  · refine transitive_of_apart (fun a b => Ne.symm) ?_ hd hg
    intro x _ y _ _ _ _ hne
    exact hne rfl
  · intro ht
    exact (offered_apart hd hm ht hg).imp fun H a ha b hb => (H a ha b hb).1

theorem admits_nodup_iff (hd : (headers.map Scoped.name).Nodup) (hm : ExclusionMutual headers)
    (hg : ofHeaders headers formats = .ok g) :
    (∀ es, Admits g es → (es.map Entry.header).Nodup) ↔ ExclusionTransitive headers := by
  rw [← offered_ne_iff hd hm hg, ← forall_admits_names_iff]
  simp only [List.Nodup, List.pairwise_map]

theorem mem_header_entries_iff (hg : ofHeaders headers formats = .ok g) {a : String} :
    a ∈ g.entries.map Entry.header ↔ ∃ h ∈ live headers, h.name = a := by
  rw [map_header_entries, List.mem_flatten]
  constructor
  · rintro ⟨ns, hns, ha⟩
    obtain ⟨h, -, rfl⟩ := (mem_offered hg).mp hns
    obtain ⟨x, hx, rfl⟩ := List.mem_map.mp ha
    exact ⟨x, (mem_circle.mp hx).1, rfl⟩
  · rintro ⟨h, hh, rfl⟩
    exact ⟨_, (mem_offered hg).mpr ⟨h, hh, rfl⟩, List.mem_map_of_mem (self_mem_circle hh)⟩

theorem count_header_iff (hd : (headers.map Scoped.name).Nodup) (hm : ExclusionMutual headers)
    (hg : ofHeaders headers formats = .ok g) :
    (∀ h ∈ live headers, (g.entries.map Entry.header).count h.name = 1) ↔
      ExclusionTransitive headers := by
  have hparts : ∀ ns ∈ g.offered, ns.Nodup := by
    intro ns hns
    obtain ⟨h, -, rfl⟩ := (mem_offered hg).mp hns
    exact (List.filter_sublist.map Scoped.name).nodup (nodup_map_name_live hd)
  have hnodup : (g.entries.map Entry.header).Nodup ↔ ExclusionTransitive headers := by
    rw [map_header_entries, List.nodup_flatten, ← offered_ne_iff hd hm hg]
    rw [and_iff_right hparts]
    exact ⟨fun h => h.imp List.disjoint_iff_ne.mp, fun h => h.imp List.disjoint_iff_ne.mpr⟩
  rw [← hnodup]
  constructor
  · intro h
    refine List.nodup_iff_count.mpr fun a => ?_
    by_cases ha : a ∈ g.entries.map Entry.header
    · obtain ⟨x, hx, rfl⟩ := (mem_header_entries_iff hg).mp ha
      exact Nat.le_of_eq (h x hx)
    · rw [List.count_eq_zero.mpr ha]
      exact Nat.zero_le 1
  · intro h x hx
    exact List.count_eq_one_of_mem h ((mem_header_entries_iff hg).mpr ⟨x, hx, rfl⟩)

end Overlap

/-! ## Synthesis -/

/-- A synthesized group lets no two headers stand together that exclude each other,
lets no header stand twice, and has one place for every live header, each of these
exactly if exclusion is transitive among live headers. The text shows the group. -/
theorem synthesize_apart_iff {headers : List Header} (hd : (headers.map Scoped.name).Nodup)
    (hm : ExclusionMutual headers) {name : String} {base : Option Rule} {formats : Formats}
    {definition : Definition} (h : synthesize name base headers formats = .ok definition) :
    ∃ g, ofHeaders headers formats = .ok g ∧ definition = g.definition name base ∧
      g.Shows definition.rule.body ∧
      ((∀ es, Admits g es → ∀ e ∈ es, ∀ f ∈ es, e.header ≠ f.header →
        ¬Excludes headers e.header f.header) ↔ ExclusionTransitive headers) ∧
      ((∀ es, Admits g es → (es.map Entry.header).Nodup) ↔ ExclusionTransitive headers) ∧
      ((∀ x ∈ live headers, (g.entries.map Entry.header).count x.name = 1) ↔
        ExclusionTransitive headers) := by
  unfold synthesize at h
  cases hg : ofHeaders headers formats with
  | error reason =>
    rw [hg] at h
    cases h
  | ok g =>
    rw [hg] at h
    cases h
    exact ⟨g, rfl, rfl, shows_text (choosable_ofHeaders hg), admits_apart_iff hd hm hg, admits_nodup_iff hd hm hg,
      count_header_iff hd hm hg⟩

/-! ## Three headers -/

/-- An optional header with a text that excludes some others. -/
def textHeader (name : String) (exclusive : List String) : Header :=
  ⟨name, none, none, .optional, "text", exclusive⟩

def textFormats : Formats := ⟨[("text", ⟨"tstr", ""⟩)], by decide⟩

def textEntry (name : String) : Entry := ⟨name, "\"" ++ name ++ "\"", "tstr"⟩

/-- Each of three headers excludes both others. -/
def headerTriangle : List Header :=
  [textHeader "a" ["b", "c"], textHeader "b" ["a", "c"], textHeader "c" ["a", "b"]]

/-- The first and the last of three headers only exclude the one between them. -/
def headerPath : List Header :=
  [textHeader "a" ["b"], textHeader "b" ["a", "c"], textHeader "c" ["b"]]

instance (headers : List Header) : Decidable (ExclusionMutual headers) :=
  inferInstanceAs (Decidable (∀ x ∈ headers, ∀ y ∈ headers, _ → _))

instance (headers : List Header) : Decidable (ExclusionTransitive headers) :=
  inferInstanceAs (Decidable (∀ x ∈ live headers, ∀ y ∈ live headers, ∀ z ∈ live headers,
    _ → _ → _ → _))

/-- Headers that all exclude each other are kept apart. -/
theorem headerTriangle_apart : ∃ g, ofHeaders headerTriangle textFormats = .ok g ∧
    ∀ es, Admits g es → (es.map Entry.header).Nodup ∧
      ∀ e ∈ es, ∀ f ∈ es, e.header ≠ f.header → ¬Excludes headerTriangle e.header f.header := by
  have hd : (headerTriangle.map Scoped.name).Nodup := by decide
  have hm : ExclusionMutual headerTriangle := by decide
  have ht : ExclusionTransitive headerTriangle := by decide
  have hs : synthesize "group" none headerTriangle textFormats = .ok _ := rfl
  obtain ⟨g, hg, -, -, happart, hnodup, -⟩ := synthesize_apart_iff hd hm hs
  exact ⟨g, hg, fun es hes => ⟨hnodup.mpr ht es hes, happart.mpr ht es hes⟩⟩

/-- Symmetry is not enough: along a path two headers that exclude each other can be
taken from different choices, one header can be taken twice, and it has three places. -/
theorem headerPath_overlaps :
    (headerPath.map Scoped.name).Nodup ∧ ExclusionMutual headerPath ∧
    (∀ h ∈ headerPath, ∀ m ∈ h.record.exclusive, m ∈ headerPath.map Scoped.name) ∧
    ∃ g, synthesize "group" none headerPath textFormats = .ok (g.definition "group" none) ∧
      (∃ es, Admits g es ∧ ∃ e ∈ es, ∃ f ∈ es, e.header ≠ f.header ∧
        Excludes headerPath e.header f.header) ∧
      (∃ es, Admits g es ∧ ¬(es.map Entry.header).Nodup) ∧
      (g.entries.map Entry.header).count "b" = 3 := by
  let a := textEntry "a"
  let b := textEntry "b"
  let c := textEntry "c"
  have hlater : Admits [.choice [a, b, c], .choice [b, c]] [b] :=
    @Admits.cons _ _ (some b) _ (by decide : b ∈ [a, b, c]) (@Admits.cons _ _ none _ trivial .nil)
  refine ⟨by decide, by decide, by decide, [.choice [a, b], .choice [a, b, c], .choice [b, c]], rfl,
    ⟨[a, b], ?_, a, by decide, b, by decide, by decide, ?_⟩, ⟨[b, b], ?_, by decide⟩, by decide⟩
  · exact @Admits.cons _ _ (some a) _ (by decide : a ∈ [a, b]) hlater
  · exact ⟨textHeader "a" ["b"], by decide, textHeader "b" ["a", "c"], by decide, rfl, rfl,
      by decide⟩
  · exact @Admits.cons _ _ (some b) _ (by decide : b ∈ [a, b]) hlater

end Group

end SignedDocs.Cddl
