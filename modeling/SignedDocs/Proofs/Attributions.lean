import SignedDocs.Proofs.Acceptance
import SignedDocs.Proofs.ReferenceClosure
import SignedDocs.Proofs.Replacement
import SignedDocs.Proofs.TableExtension

/-!
Attributions: the authors of a document and of the specification in one table, and the day of
the latest change to either.

* `Date.IsLatest`: one of some days, and none of them is later. There is at most one such day
  (`IsLatest.unique`), and the search finds it (`Date.latest?_eq_some_iff`).
* `Date.later_latest?`: the later one of two latest days is the latest one of all; where one
  list has no days, the other one decides.
* `Attribution.Merges`: what is said of authors and changes, without the tables being filled.
* `attribution_merges`: so it is on accepted specifications, for every document and for the whole.
-/

namespace SignedDocs

/-! ## The latest of some days -/

namespace Date

variable {a b c d : Date} {days more : List Date}

/-- By years, then by months, then by days. -/
theorem le_iff : a.le b = true ↔ a.year < b.year ∨ a.year = b.year ∧
    (a.month < b.month ∨ a.month = b.month ∧ a.day ≤ b.day) := by
  simp [le]

theorem le_refl (a : Date) : a.le a = true := by
  rw [le_iff]
  omega

theorem le_total (a b : Date) : a.le b = true ∨ b.le a = true := by
  rw [le_iff, le_iff]
  omega

theorem le_trans (hab : a.le b = true) (hbc : b.le c = true) : a.le c = true := by
  rw [le_iff] at hab hbc ⊢
  omega

theorem le_antisymm (hab : a.le b = true) (hba : b.le a = true) : a = b := by
  rw [le_iff] at hab hba
  have hyear : a.year = b.year := by omega
  have hmonth : a.month = b.month := by omega
  have hday : a.day = b.day := by omega
  cases a
  cases b
  cases hyear
  cases hmonth
  cases hday
  rfl

theorem max_eq (a b : Date) : a.max b = a ∨ a.max b = b := by
  unfold max
  split
  · exact Or.inr rfl
  · exact Or.inl rfl

theorem le_max_left (a b : Date) : a.le (a.max b) = true := by
  unfold max
  split
  · assumption
  · exact le_refl a

theorem le_max_right (a b : Date) : b.le (a.max b) = true := by
  unfold max
  split
  · exact le_refl b
  · exact (le_total a b).resolve_left ‹_›

/-- One of the days, and none of them is later. -/
structure IsLatest (days : List Date) (d : Date) : Prop where
  mem : d ∈ days
  le : ∀ e ∈ days, e.le d = true

theorem IsLatest.unique (h : IsLatest days a) (h' : IsLatest days b) : a = b :=
  le_antisymm (h'.le a h.mem) (h.le b h'.mem)

theorem isLatest_singleton (d : Date) : IsLatest [d] d where
  mem := List.mem_cons_self
  le e he := by
    rw [List.mem_singleton.mp he]
    exact le_refl d

theorem IsLatest.append (h : IsLatest days a) (h' : IsLatest more b) :
    IsLatest (days ++ more) (a.max b) where
  mem := by
    rw [List.mem_append]
    rcases max_eq a b with hmax | hmax
    · rw [hmax]
      exact Or.inl h.mem
    · rw [hmax]
      exact Or.inr h'.mem
  le e he := by
    rcases List.mem_append.mp he with he | he
    · exact le_trans (h.le e he) (le_max_left a b)
    · exact le_trans (h'.le e he) (le_max_right a b)

theorem IsLatest.foldl_max (h : IsLatest days d) (more : List Date) :
    IsLatest (days ++ more) (more.foldl max d) := by
  induction more generalizing days d with
  | nil =>
    rw [List.append_nil]
    exact h
  | cons e more ih =>
    have hstep : IsLatest (days ++ [e]) (d.max e) := h.append (isLatest_singleton e)
    rw [List.append_cons]
    exact ih hstep

/-- The search finds the latest day, and nothing else. -/
theorem latest?_eq_some_iff : latest? days = some d ↔ IsLatest days d := by
  cases days with
  | nil => exact ⟨nofun, fun h => absurd h.mem List.not_mem_nil⟩
  | cons first rest =>
    have hfound : IsLatest (first :: rest) (rest.foldl max first) :=
      (isLatest_singleton first).foldl_max rest
    constructor
    · intro h
      rw [← Option.some.inj h]
      exact hfound
    · intro h
      exact congrArg some (hfound.unique h)

theorem exists_latest? (h : days ≠ []) : ∃ d, latest? days = some d := by
  cases days with
  | nil => exact absurd rfl h
  | cons first rest => exact ⟨_, rfl⟩

end Date

namespace Attribution

/-- The later one of two latest days is the latest one of all days. A list without days changes
nothing. -/
theorem later_latest? (days more : List Date) :
    later (Date.latest? days) (Date.latest? more) = Date.latest? (days ++ more) := by
  cases days with
  | nil => rfl
  | cons first rest =>
    cases more with
    | nil =>
      rw [List.append_nil]
      rfl
    | cons next others =>
      obtain ⟨a, ha⟩ := Date.exists_latest? (List.cons_ne_nil first rest)
      obtain ⟨b, hb⟩ := Date.exists_latest? (List.cons_ne_nil next others)
      have hlatest := (Date.latest?_eq_some_iff.mp ha).append (Date.latest?_eq_some_iff.mp hb)
      rw [ha, hb, Date.latest?_eq_some_iff.mpr hlatest]
      rfl

/-! ## Merged authors and changes -/

/-- The authors of a part and of the whole, and the day of the latest of some changes. The
authors of the part come first; each is listed once, and one of both keeps the place among those
of the part and the address that the whole gives. -/
structure Merges (part whole : Authors) (changes : List Revision) (a : Attribution) : Prop where
  names : a.authors.keys = part.keys ++ whole.keys.filter fun n => n ∉ part.keys
  nodup : a.authors.keys.Nodup
  addressOfWhole : ∀ name address, whole.get? name = some address →
    a.authors.get? name = some address
  addressOfPart : ∀ name, name ∉ whole.keys → a.authors.get? name = part.get? name
  lastModified : ∃ day, a.lastModified = some day ∧
    Date.IsLatest (changes.map Revision.modified) day

variable {authors docAuthors : Authors} {copyright : Copyright} {docVersions : List Revision}

theorem authors_ofDocument :
    (ofDocument authors copyright docAuthors docVersions).authors =
      docAuthors.extend authors.entries := by
  show (Table.ofList docAuthors.entries).extend authors.entries = _
  rw [Table.ofList_entries]

theorem lastModified_ofDocument :
    (ofDocument authors copyright docAuthors docVersions).lastModified =
      Revision.latest? (copyright.versions ++ docVersions) := by
  show later (Date.latest? _) (Date.latest? _) = Date.latest? _
  rw [later_latest?, List.map_append]

/-- The specification is like a document without authors and changes of its own, but that its
own changes are shown. -/
theorem ofSpecification_eq : ofSpecification authors copyright =
    { ofDocument authors copyright Table.empty [] with versions := copyright.versions } := by
  have hlast : Revision.latest? copyright.versions =
      (ofDocument authors copyright Table.empty []).lastModified := by
    rw [lastModified_ofDocument, List.append_nil]
  unfold ofSpecification
  rw [hlast]
  rfl

/-- A table of authors is filled so that they are merged; there is a latest day if the
specification has changes. -/
theorem merges_ofDocument (h : copyright.versions ≠ []) :
    (ofDocument authors copyright docAuthors docVersions).Merges docAuthors authors
      (copyright.versions ++ docVersions) where
  names := by
    rw [authors_ofDocument]
    exact Table.keys_extend_entries docAuthors authors
  nodup := Table.keys_nodup _
  addressOfWhole name address haddress := by
    rw [authors_ofDocument, Table.get?_extend_entries, haddress]
    rfl
  addressOfPart name hname := by
    rw [authors_ofDocument, Table.get?_extend_entries, Table.get?_eq_none_iff.mpr hname]
    rfl
  lastModified := by
    have hne : (copyright.versions ++ docVersions).map Revision.modified ≠ [] := by
      simp [h]
    obtain ⟨day, hday⟩ := Date.exists_latest? hne
    exact ⟨day, lastModified_ofDocument.trans hday, Date.latest?_eq_some_iff.mp hday⟩

theorem merges_ofSpecification (h : copyright.versions ≠ []) :
    (ofSpecification authors copyright).Merges Table.empty authors copyright.versions := by
  have hmerges : (ofDocument authors copyright Table.empty []).Merges Table.empty authors
      (copyright.versions ++ []) := merges_ofDocument h
  rw [List.append_nil] at hmerges
  rw [ofSpecification_eq]
  exact ⟨hmerges.names, hmerges.nodup, hmerges.addressOfWhole, hmerges.addressOfPart,
    hmerges.lastModified⟩

end Attribution

/-! ## Accepted specifications -/

namespace Specification

variable {s : Settings} {root : Json} {spec : Specification}

theorem copyright_versions_ne_nil [JsonSchema.Engine] (h : ofJson s root = .ok spec) :
    spec.content.copyright.versions ≠ [] := by
  obtain ⟨d, -, hcoherent, -, hcontent, -⟩ := exists_of_ofJson_ok h
  rw [hcontent, Draft.copyright_primed]
  exact hcoherent.copyrightVersions

/-- On an accepted specification every document has its authors before those of the
specification, its own changes, and a day of the latest change to either of both. The whole has
the authors, the changes and the latest day of the specification alone. -/
theorem attribution_merges [JsonSchema.Engine] (h : ofJson s root = .ok spec) :
    (∀ name ∈ spec.documentNames, ∃ doc a, spec.document name = .ok doc ∧
      spec.attribution (some name) = .ok a ∧
      a.Merges doc.authors spec.content.authors
        (spec.content.copyright.versions ++ doc.versions) ∧
      a.versions = doc.versions ∧ a.copyright = spec.content.copyright) ∧
    ∃ a, spec.attribution none = .ok a ∧
      a.Merges Table.empty spec.content.authors spec.content.copyright.versions ∧
      a.versions = spec.content.copyright.versions ∧ a.copyright = spec.content.copyright := by
  have hchanged := copyright_versions_ne_nil h
  constructor
  · intro name hname
    obtain ⟨doc, -, hdoc⟩ := exists_document hname
    have hanswer : spec.attribution (some name) = .ok (.ofDocument spec.content.authors
        spec.content.copyright doc.authors doc.versions) := by
      show (spec.document name >>= _) = _
      rw [hdoc]
      rfl
    exact ⟨doc, _, hdoc, hanswer, Attribution.merges_ofDocument hchanged, rfl, rfl⟩
  · exact ⟨_, rfl, Attribution.merges_ofSpecification hchanged, rfl, rfl⟩

/-- Replies with authors, one of whom is an author of the specification, too, and with a
change that is later than those of the specification. -/
def signedReplies : Json :=
  ((replies.replace ["authors"] (.object [("Kim", .string "kim@new"), ("Ada", .string "ada@new")])
    ).replace ["docs", "reply", "authors"]
      (.object [("Sam", .string "sam@old"), ("Kim", .string "kim@old")])).replace
    ["docs", "reply", "versions"] (.array [.object [("version", .string "2"),
      ("modified", .string "2024-02-01"), ("changes", .string "")]])

/-- The common author stands second, with the address of the specification, and the change of
the reply is the latest one. -/
theorem signedReplies_attributed : ∃ spec, ofJson .default signedReplies = .ok spec ∧
    "reply" ∈ spec.documentNames ∧ ∃ a, spec.attribution (some "reply") = .ok a ∧
      a.authors.keys = ["Sam", "Kim", "Ada"] ∧ a.authors.get? "Kim" = some "kim@new" ∧
      a.authors.get? "Sam" = some "sam@old" ∧
      a.lastModified.map Date.render = some "2024-02-01" := by
  have hload : ofJson .default signedReplies = .ok _ := rfl
  obtain ⟨doc, a, hdoc, ha, hmerges, -, -⟩ := (attribution_merges hload).1 "reply" (by decide)
  cases hdoc
  refine ⟨_, hload, by decide, a, ha, hmerges.names, hmerges.addressOfWhole "Kim" _ rfl,
    hmerges.addressOfPart "Sam" (by decide), ?_⟩
  cases ha
  rfl

end Specification

end SignedDocs
