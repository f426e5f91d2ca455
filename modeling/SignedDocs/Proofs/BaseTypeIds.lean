import Mathlib.Data.List.Forall2
import Mathlib.Data.List.Induction
import Mathlib.Data.List.Nodup
import SignedDocs.BaseTypes

/-!
Identifiers of base types: which texts are kept, under their names and under their identifiers.

* `FirstWith`: a name has the first text for an identifier.
* `Loaded`: what some entries have led to so far, in both maps and in the errors. One entry more
  keeps to it (`Loaded.add`), and so do all entries (`loaded_ofTexts`).
* `ofTexts_outcome`: both maps are inverse to each other; an entry is kept if it is the first with
  an identifier of version 4, and otherwise brings one error.
* `ofTexts_clean_iff`: all texts are identifiers, and no two are the same one. Nothing is left
  of who came first.
-/

namespace SignedDocs

theorem Uuid.readVersion4_eq_ok_iff {text : String} {id : Uuid} :
    Uuid.readVersion4 text = .ok id ↔ Uuid.read text = .ok id ∧ id.version = 4 := by
  unfold readVersion4
  cases read text with
  | error unfit => simp [bind, Except.bind]
  | ok other =>
    by_cases h : other.version = 4
    · simp only [bind, Except.bind, h, if_true, pure, Except.pure, Except.ok.injEq]
      constructor
      · rintro rfl
        exact ⟨rfl, h⟩
      · exact And.left
    · simp only [bind, Except.bind, h, if_false, reduceCtorEq, Except.ok.injEq, false_iff]
      rintro ⟨rfl, h'⟩
      exact h h'

namespace BaseTypes

/-! ## First texts -/

/-- The name has the first text for the identifier. -/
def FirstWith (es : List (String × String)) (id : Uuid) (name : String) : Prop :=
  ∃ before text after, es = before ++ (name, text) :: after ∧ Uuid.read text = .ok id ∧
    ∀ e ∈ before, Uuid.read e.2 ≠ .ok id

section First

variable {es : List (String × String)} {e : String × String} {id : Uuid} {name : String}

theorem FirstWith.mem (h : FirstWith es id name) :
    ∃ text, (name, text) ∈ es ∧ Uuid.read text = .ok id := by
  obtain ⟨before, text, after, rfl, hread, -⟩ := h
  exact ⟨text, List.mem_append_right _ List.mem_cons_self, hread⟩

/-- A later entry is the first only for an identifier without an earlier one. -/
theorem firstWith_concat : FirstWith (es ++ [e]) id name ↔ FirstWith es id name ∨
    (∀ f ∈ es, Uuid.read f.2 ≠ .ok id) ∧ Uuid.read e.2 = .ok id ∧ e.1 = name := by
  constructor
  · rintro ⟨before, text, after, hsplit, hread, hbefore⟩
    rcases List.eq_nil_or_concat after with rfl | ⟨init, last, rfl⟩
    · obtain ⟨rfl, hlast⟩ := List.append_inj' hsplit rfl
      cases hlast
      exact Or.inr ⟨hbefore, hread, rfl⟩
    · have hinit : es ++ [e] = (before ++ (name, text) :: init) ++ [last] := by
        simpa using hsplit
      exact Or.inl ⟨before, text, init, (List.append_inj' hinit rfl).1, hread, hbefore⟩
  · rintro (⟨before, text, after, rfl, hread, hbefore⟩ | ⟨hfree, hread, rfl⟩)
    · exact ⟨before, text, after ++ [e], by simp, hread, hbefore⟩
    · exact ⟨es, e.2, [], rfl, hread, hfree⟩

/-- A new identifier is that of the last entry, and others are not. -/
theorem firstWith_concat_of_new {other : Uuid} (hread : Uuid.read e.2 = .ok id)
    (hfree : ∀ f ∈ es, Uuid.read f.2 ≠ .ok id) : FirstWith (es ++ [e]) other name ↔
      if other = id then name = e.1 else FirstWith es other name := by
  rw [firstWith_concat]
  by_cases h : other = id
  · subst h
    rw [if_pos rfl]
    constructor
    · rintro (hearlier | ⟨-, -, hname⟩)
      · obtain ⟨text, hmem, htext⟩ := hearlier.mem
        exact absurd htext (hfree _ hmem)
      · exact hname.symm
    · rintro rfl
      exact Or.inr ⟨hfree, hread, rfl⟩
  · rw [if_neg h, or_iff_left_iff_imp, hread]
    rintro ⟨-, hother, -⟩
    exact absurd (Except.ok.inj hother).symm h

/-- A new name has that identifier only. -/
theorem firstWith_concat_of_fresh {other : Uuid} (hread : Uuid.read e.2 = .ok id)
    (hfree : ∀ f ∈ es, Uuid.read f.2 ≠ .ok id) (hfresh : e.1 ∉ es.map Prod.fst) :
    FirstWith (es ++ [e]) other name ↔ if name = e.1 then other = id else FirstWith es other name := by
  rw [firstWith_concat]
  by_cases h : name = e.1
  · subst h
    rw [if_pos rfl]
    constructor
    · rintro (hearlier | ⟨-, hother, -⟩)
      · obtain ⟨text, hmem, -⟩ := hearlier.mem
        exact absurd (List.mem_map.mpr ⟨_, hmem, rfl⟩) hfresh
      · exact Except.ok.inj (hother.symm.trans hread)
    · rintro rfl
      exact Or.inr ⟨hfree, hread, rfl⟩
  · rw [if_neg h, or_iff_left_iff_imp]
    rintro ⟨-, -, hname⟩
    exact absurd hname.symm h

/-- An identifier that some entry has is that of a first one. -/
theorem exists_firstWith (h : ∃ e ∈ es, Uuid.read e.2 = .ok id) : ∃ owner, FirstWith es id owner := by
  induction es using List.reverseRecOn with
  | nil =>
    obtain ⟨e, he, -⟩ := h
    cases he
  | append_singleton es last ih =>
    by_cases hearlier : ∃ e ∈ es, Uuid.read e.2 = .ok id
    · obtain ⟨owner, howner⟩ := ih hearlier
      exact ⟨owner, firstWith_concat.mpr (Or.inl howner)⟩
    · obtain ⟨e, he, hread⟩ := h
      rcases List.mem_append.mp he with he | he
      · exact absurd ⟨e, he, hread⟩ hearlier
      · rw [List.mem_singleton.mp he] at hread
        exact ⟨last.1, firstWith_concat.mpr
          (Or.inr ⟨fun f hf hf' => hearlier ⟨f, hf, hf'⟩, hread, rfl⟩)⟩

/-- For the entry at a given place, being the first is a matter of the entries before it. -/
theorem firstWith_split_iff {before after : List (String × String)} {text : String}
    (hd : ((before ++ (name, text) :: after).map Prod.fst).Nodup) :
    FirstWith (before ++ (name, text) :: after) id name ↔
      Uuid.read text = .ok id ∧ ∀ e ∈ before, Uuid.read e.2 ≠ .ok id := by
  constructor
  · rintro ⟨before', text', after', hsplit, hread, hbefore⟩
    have hkeys := congrArg (List.map Prod.fst) hsplit
    rw [List.map_append, List.map_cons, List.nodup_append] at hd
    rw [List.map_append, List.map_append, List.map_cons, List.map_cons] at hkeys
    have hleft : name ∉ before.map Prod.fst :=
      fun hn => hd.2.2 name hn name List.mem_cons_self rfl
    have hright : name ∉ after.map Prod.fst := (List.nodup_cons.mp hd.2.1).1
    have hlength : before.length = before'.length := by
      have := (List.append_cons_inj_of_notMem hleft hright).mp hkeys
      simpa using congrArg List.length this.1
    obtain ⟨rfl, hrest⟩ := List.append_inj hsplit hlength
    cases hrest
    exact ⟨hread, hbefore⟩
  · rintro ⟨hread, hbefore⟩
    exact ⟨before, text, after, rfl, hread, hbefore⟩

end First

/-! ## One entry more -/

/-- What is said of an entry that is not kept, at its own place: its text is no identifier of
version 4, or a first entry of another name has the identifier. -/
def Refused (es : List (String × String)) (e : String × String) (issue : Issue) : Prop :=
  issue.place = [sectionName, e.1] ∧
    match Uuid.readVersion4 e.2 with
    | .error unfit => issue.kind = .structural ∧ issue.finding = .unfitId unfit
    | .ok id => issue.kind = .invariant ∧
      ∃ owner, owner ≠ e.1 ∧ FirstWith es id owner ∧ issue.finding = .reusedId id owner

/-- What the entries have led to: both maps hold the first names of identifiers of version 4, in
the order of the entries, and there is one error for each other entry. -/
structure Loaded (es : List (String × String)) (b : BaseTypes) (issues : List Issue) : Prop where
  ids : ∀ name id, b.id? name = some id ↔ id.version = 4 ∧ FirstWith es id name
  owners : ∀ name id, b.name? id = some name ↔ id.version = 4 ∧ FirstWith es id name
  order : b.names.Sublist (es.map Prod.fst)
  issues : List.Forall₂ (Refused es) (es.filter fun e => (b.id? e.1).isNone) issues

section Step

variable {es : List (String × String)} {e : String × String} {b : BaseTypes}
  {issues : List Issue} {issue : Issue} {id : Uuid}

/-- Later entries take nothing back. -/
theorem Refused.concat {last : String × String} (h : Refused es e issue) :
    Refused (es ++ [last]) e issue := by
  unfold Refused at *
  refine ⟨h.1, ?_⟩
  cases hread : Uuid.readVersion4 e.2 with
  | error unfit => simpa [hread] using h.2
  | ok id =>
    simp only [hread] at h ⊢
    obtain ⟨-, hkind, owner, hne, hfirst, hfinding⟩ := h
    exact ⟨hkind, owner, hne, firstWith_concat.mpr (Or.inl hfirst), hfinding⟩

theorem loaded_empty : Loaded [] empty [] where
  ids := by
    intro name id
    constructor
    · intro h
      cases h
    · rintro ⟨-, h⟩
      obtain ⟨text, hmem, -⟩ := h.mem
      cases hmem
  owners := by
    intro name id
    constructor
    · intro h
      cases h
    · rintro ⟨-, h⟩
      obtain ⟨text, hmem, -⟩ := h.mem
      cases hmem
  order := List.Sublist.slnil
  issues := .nil

theorem Loaded.id?_fresh (h : Loaded es b issues) (hfresh : e.1 ∉ es.map Prod.fst) :
    b.id? e.1 = none := by
  rw [Option.eq_none_iff_forall_ne_some]
  intro id hid
  obtain ⟨text, hmem, -⟩ := ((h.ids _ _).mp hid).2.mem
  exact hfresh (List.mem_map.mpr ⟨_, hmem, rfl⟩)

/-- An entry that is first for no identifier of version 4 leaves the maps as they are. -/
theorem Loaded.refuse (h : Loaded es b issues) (hfresh : e.1 ∉ es.map Prod.fst)
    (hlate : ∀ id, Uuid.readVersion4 e.2 = .ok id → ∃ f ∈ es, Uuid.read f.2 = .ok id)
    (hissue : Refused (es ++ [e]) e issue) : Loaded (es ++ [e]) b (issues ++ [issue]) := by
  have hsame : ∀ name id, id.version = 4 ∧ FirstWith (es ++ [e]) id name ↔
      id.version = 4 ∧ FirstWith es id name := by
    intro name id
    refine and_congr_right fun hversion => ?_
    rw [firstWith_concat, or_iff_left_iff_imp]
    rintro ⟨hfree, hread, -⟩
    obtain ⟨f, hf, hf'⟩ := hlate id (Uuid.readVersion4_eq_ok_iff.mpr ⟨hread, hversion⟩)
    exact absurd hf' (hfree f hf)
  refine ⟨?_, ?_, ?_, ?_⟩
  · intro name id
    rw [h.ids, hsame]
  · intro name id
    rw [h.owners, hsame]
  · rw [List.map_append]
    exact h.order.trans (List.sublist_append_left _ _)
  · have hlast : ([e].filter fun f => (b.id? f.1).isNone) = [e] := by
      simp [h.id?_fresh hfresh]
    rw [List.filter_append, hlast]
    exact List.rel_append (h.issues.imp fun _ _ => Refused.concat) (.cons hissue .nil)

/-- An entry with the first text for an identifier of version 4 is kept. -/
theorem Loaded.keep (h : Loaded es b issues) (hfresh : e.1 ∉ es.map Prod.fst)
    (hread : Uuid.readVersion4 e.2 = .ok id) (hfree : ∀ f ∈ es, Uuid.read f.2 ≠ .ok id) :
    Loaded (es ++ [e]) (b.insert e.1 id) issues := by
  obtain ⟨hread, hversion⟩ := Uuid.readVersion4_eq_ok_iff.mp hread
  have hstored : ∀ f ∈ es, (b.insert e.1 id).id? f.1 = b.id? f.1 := by
    intro f hf
    rw [id?_insert, if_neg]
    intro heq
    exact hfresh (List.mem_map.mpr ⟨f, hf, heq⟩)
  refine ⟨?_, ?_, ?_, ?_⟩
  · intro name other
    rw [id?_insert, firstWith_concat_of_fresh hread hfree hfresh]
    by_cases hname : name = e.1
    · rw [if_pos hname, if_pos hname, Option.some.injEq, eq_comm, iff_and_self]
      rintro rfl
      exact hversion
    · rw [if_neg hname, if_neg hname, h.ids]
  · intro name other
    rw [name?_insert, firstWith_concat_of_new hread hfree]
    by_cases hother : other = id
    · rw [if_pos hother, if_pos hother, Option.some.injEq, eq_comm, hother, and_iff_right hversion]
    · rw [if_neg hother, if_neg hother, h.owners]
  · have hnew : e.1 ∉ b.ids.entries.map Prod.fst :=
      Table.get?_eq_none_iff.mp (h.id?_fresh hfresh)
    have hnames : (b.insert e.1 id).names = b.names ++ [e.1] := by
      show (Table.put e.1 id b.ids.entries).map Prod.fst = _
      rw [Table.map_fst_put, if_neg hnew]
      rfl
    rw [hnames, List.map_append]
    exact h.order.append_right [e.1]
  · have hfilter : (es ++ [e]).filter (fun f => ((b.insert e.1 id).id? f.1).isNone) =
        es.filter fun f => (b.id? f.1).isNone := by
      rw [List.filter_append, List.filter_congr fun f hf => by rw [hstored f hf]]
      simp [id?_insert]
    rw [hfilter]
    exact h.issues.imp fun _ _ => Refused.concat

/-- One entry more, kept or not. -/
theorem Loaded.add (h : Loaded es b issues) (hfresh : e.1 ∉ es.map Prod.fst) :
    Loaded (es ++ [e]) (b.add issues e.1 e.2).1 (b.add issues e.1 e.2).2 := by
  unfold BaseTypes.add
  cases hread : Uuid.readVersion4 e.2 with
  | error unfit =>
    have hissue : Refused (es ++ [e]) e ⟨[sectionName, e.1], .unfitId unfit⟩ := by
      simp [Refused, hread, Issue.kind, Finding.kind]
    refine h.refuse hfresh (fun id hid => ?_) hissue
    rw [hread] at hid
    cases hid
  | ok id =>
    have hversion := (Uuid.readVersion4_eq_ok_iff.mp hread).2
    simp only
    cases howner : b.name? id with
    | none =>
      refine h.keep hfresh hread fun f hf hf' => ?_
      obtain ⟨owner, hfirst⟩ := exists_firstWith ⟨f, hf, hf'⟩
      rw [(h.owners _ _).mpr ⟨hversion, hfirst⟩] at howner
      cases howner
    | some owner =>
      obtain ⟨-, hfirst⟩ := (h.owners _ _).mp howner
      obtain ⟨text, hmem, htext⟩ := hfirst.mem
      have hne : owner ≠ e.1 := by
        rintro rfl
        exact hfresh (List.mem_map.mpr ⟨_, hmem, rfl⟩)
      have hissue : Refused (es ++ [e]) e ⟨[sectionName, e.1], .reusedId id owner⟩ := by
        have hstill := firstWith_concat (e := e).mpr (Or.inl hfirst)
        simp [Refused, hread, Issue.kind, Finding.kind, hne, hstill]
      refine h.refuse hfresh (fun other hother => ?_) hissue
      rw [hread] at hother
      cases hother
      exact ⟨_, hmem, htext⟩

end Step

/-! ## All entries -/

theorem loaded_foldl {es rest : List (String × String)} {b : BaseTypes} {issues : List Issue}
    (h : Loaded es b issues) (hd : ((es ++ rest).map Prod.fst).Nodup) :
    Loaded (es ++ rest) (rest.foldl (fun acc e => acc.1.add acc.2 e.1 e.2) (b, issues)).1
      (rest.foldl (fun acc e => acc.1.add acc.2 e.1 e.2) (b, issues)).2 := by
  induction rest generalizing es b issues with
  | nil =>
    rw [List.append_nil]
    exact h
  | cons e rest ih =>
    have hsplit : es ++ e :: rest = (es ++ [e]) ++ rest := by simp
    have hfresh : e.1 ∉ es.map Prod.fst := by
      rw [List.map_append, List.map_cons, List.nodup_append] at hd
      exact fun he => hd.2.2 e.1 he e.1 List.mem_cons_self rfl
    rw [hsplit] at hd ⊢
    exact ih (h.add hfresh) hd

/-- The identifier of a name is what its text says. -/
theorem Loaded.readVersion4 {es : List (String × String)} {b : BaseTypes} {issues : List Issue}
    (h : Loaded es b issues) (hd : (es.map Prod.fst).Nodup) {e : String × String} (he : e ∈ es)
    {id : Uuid} (hid : b.id? e.1 = some id) : Uuid.readVersion4 e.2 = .ok id := by
  obtain ⟨hversion, hfirst⟩ := (h.ids _ _).mp hid
  obtain ⟨text, hmem, hread⟩ := hfirst.mem
  rw [← List.inj_on_of_nodup_map hd hmem he rfl]
  exact Uuid.readVersion4_eq_ok_iff.mpr ⟨hread, hversion⟩

theorem loaded_ofTexts (texts : Table String) :
    Loaded texts.entries (ofTexts texts).1 (ofTexts texts).2 :=
  loaded_foldl loaded_empty texts.keys_nodup

/-- Names and identifiers lead to each other, and all identifiers have version 4. An entry is
kept if its text is such an identifier and no text before it is the same one; the names keep
their order. Every other entry brings one error, and there are no more. -/
theorem ofTexts_outcome (texts : Table String) :
    (∀ name id, (ofTexts texts).1.id? name = some id ↔ (ofTexts texts).1.name? id = some name) ∧
      (∀ name id, (ofTexts texts).1.id? name = some id → id.version = 4) ∧
      (∀ before name text after, texts.entries = before ++ (name, text) :: after →
        ∀ id, (ofTexts texts).1.id? name = some id ↔
          Uuid.readVersion4 text = .ok id ∧ ∀ e ∈ before, Uuid.read e.2 ≠ .ok id) ∧
      (ofTexts texts).1.names.Sublist texts.keys ∧
      List.Forall₂ (Refused texts.entries)
        (texts.entries.filter fun e => ((ofTexts texts).1.id? e.1).isNone) (ofTexts texts).2 := by
  have h := loaded_ofTexts texts
  refine ⟨?_, ?_, ?_, h.order, h.issues⟩
  · intro name id
    rw [h.ids, h.owners]
  · intro name id hid
    exact ((h.ids _ _).mp hid).1
  · intro before name text after hsplit id
    have hd := texts.keys_nodup
    rw [hsplit] at hd
    rw [h.ids, hsplit, firstWith_split_iff hd, Uuid.readVersion4_eq_ok_iff]
    exact ⟨fun ⟨hversion, hread, hfree⟩ => ⟨⟨hread, hversion⟩, hfree⟩,
      fun ⟨⟨hread, hversion⟩, hfree⟩ => ⟨hversion, hread, hfree⟩⟩

/-- The base types of some texts are clean whoever comes first. -/
theorem ofTexts_clean_iff {texts : Table String} :
    (ofTexts texts).2 = [] ↔ (∀ e ∈ texts.entries, ∃ id, Uuid.readVersion4 e.2 = .ok id) ∧
      (texts.entries.map fun e => Uuid.readVersion4 e.2).Nodup := by
  have h := loaded_ofTexts texts
  have hclean : (ofTexts texts).2 = [] ↔
      ∀ e ∈ texts.entries, ∃ id, (ofTexts texts).1.id? e.1 = some id := by
    rw [← List.length_eq_zero_iff, ← h.issues.length_eq, List.length_eq_zero_iff,
      List.filter_eq_nil_iff]
    simp only [Option.isNone_iff_eq_none, Option.ne_none_iff_exists']
  have hkept : ∀ e ∈ texts.entries, ∀ id, (ofTexts texts).1.id? e.1 = some id →
      Uuid.readVersion4 e.2 = .ok id := fun _ he _ => h.readVersion4 texts.keys_nodup he
  rw [hclean, List.nodup_map_iff_inj_on (.of_map _ texts.keys_nodup)]
  constructor
  · intro hall
    refine ⟨fun e he => ?_, fun e he f hf hsame => ?_⟩
    · obtain ⟨id, hid⟩ := hall e he
      exact ⟨id, hkept e he id hid⟩
    · obtain ⟨id, hid⟩ := hall e he
      obtain ⟨other, hother⟩ := hall f hf
      rw [hkept e he id hid, hkept f hf other hother] at hsame
      cases hsame
      have hname : some e.1 = some f.1 := by
        rw [← (h.owners _ _).mpr ((h.ids _ _).mp hid), (h.owners _ _).mpr ((h.ids _ _).mp hother)]
      exact List.inj_on_of_nodup_map texts.keys_nodup he hf (Option.some.inj hname)
  · rintro ⟨hall, hdistinct⟩ e he
    obtain ⟨id, hid⟩ := hall e he
    obtain ⟨hread, hversion⟩ := Uuid.readVersion4_eq_ok_iff.mp hid
    obtain ⟨owner, hfirst⟩ := exists_firstWith ⟨e, he, hread⟩
    obtain ⟨text, hmem, htext⟩ := hfirst.mem
    have howner : (owner, text) = e := by
      refine hdistinct _ hmem _ he ?_
      rw [hid]
      exact Uuid.readVersion4_eq_ok_iff.mpr ⟨htext, hversion⟩
    rw [← howner]
    exact ⟨id, (h.ids _ _).mpr ⟨hversion, hfirst⟩⟩

end BaseTypes

end SignedDocs
