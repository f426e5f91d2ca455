import SignedDocs.JsonSchema.MetaSchema
import SignedDocs.Proofs.MarkedParts
import SignedDocs.Proofs.Rejection

/-!
Places and their paths: which findings a rejection leaves out.

* `Text.pieces`: a text cut at its points. One path goes on from another exactly if
  its pieces do (`pieces_prefix_iff`).
* `Report.Touches`: an error concerns an entry, a part of it or a value around it.
* `untouched_reported_iff`: a finding about an entry without errors of its own is
  reported unless the keys of some error, cut at their points, lead to it. Keys
  without points hide nothing.

A path does not tell where its keys end: an error at the key `uuid` hides what is
found at the key `uuid.v7` beside it.
-/

namespace SignedDocs

/-! ## Pieces of a text -/

namespace Text

/-- The text cut at its points. -/
def pieces (s : String) : List String := (s.toList.splitOn '.').map String.ofList

theorem pieces_ne_nil (s : String) : pieces s ≠ [] := cut_ne_nil '.' s

theorem join_pieces (s : String) : join "." (pieces s) = s := join_cut '.' s

theorem pieces_append (s t : String) : pieces (s ++ "." ++ t) = pieces s ++ pieces t :=
  cut_append '.' s t

theorem pieces_of_no_point {s : String} (h : '.' ∉ s.toList) : pieces s = [s] := cut_of_notMem h

/-- A text goes on from another after a point exactly if its pieces do. -/
theorem pieces_prefix_iff {s t : String} :
    pieces t <+: pieces s ↔ s = t ∨ ∃ rest, s = t ++ "." ++ rest := by
  constructor
  · rintro ⟨tail, ht⟩
    have hs : s = join "." (pieces t ++ tail) := by rw [ht, join_pieces]
    by_cases htail : tail = []
    · left
      rw [hs, htail, List.append_nil, join_pieces]
    · right
      refine ⟨join "." tail, ?_⟩
      rw [hs, join, String.intercalate_append_of_ne_nil (pieces_ne_nil t) htail]
      change join "." (pieces t) ++ "." ++ _ = _
      rw [join_pieces]
      rfl
  · rintro (rfl | ⟨rest, rfl⟩)
    · exact List.prefix_rfl
    · rw [pieces_append]
      exact List.prefix_append _ _

/-- The pieces of a path are those of its keys. -/
theorem pieces_join {place : List String} (h : place ≠ []) :
    pieces (join "." place) = place.flatMap pieces := by
  induction place with
  | nil => exact absurd rfl h
  | cons key rest ih =>
    cases rest with
    | nil => simp [join]
    | cons next rest =>
      have hjoin : join "." (key :: next :: rest) = key ++ "." ++ join "." (next :: rest) :=
        String.intercalate_cons_cons
      rw [hjoin, pieces_append, ih (List.cons_ne_nil _ _)]
      exact List.flatMap_cons.symm

end Text

/-! ## Entries -/

/-- The keys of a place cut at their points. -/
def Issue.pieces (i : Issue) : List String := i.place.flatMap Text.pieces

theorem Issue.isBeneath_iff {i j : Issue} (hj : j.path ≠ "") :
    i.IsBeneath j.path ↔ j.pieces <+: i.pieces := by
  have hjp : j.place ≠ [] := by
    intro h
    exact hj (by rw [path, h]; rfl)
  have hjn : j.pieces ≠ [] := by
    rw [pieces, ← Text.pieces_join hjp]
    exact Text.pieces_ne_nil _
  by_cases hi : i.place = []
  · have hip : i.path = "" := by rw [path, hi]; rfl
    have hin : i.pieces = [] := by rw [pieces, hi]; rfl
    rw [hin, List.prefix_nil, IsBeneath, hip]
    refine iff_of_false ?_ hjn
    rintro (h | ⟨rest, h⟩)
    · exact hj h.symm
    · have hlen := congrArg String.length h
      have hpoint : ".".length = 1 := rfl
      rw [String.length_append, String.length_append, String.length_empty] at hlen
      omega
  · rw [IsBeneath, ← Text.pieces_prefix_iff]
    unfold path pieces
    rw [Text.pieces_join hi, Text.pieces_join hjp]

/-- An error concerns an entry, a part of it, or a value around it. -/
def Report.Touches (r : Report) (entry : List String) : Prop :=
  ∃ j ∈ r.errors, j.place <+: entry ∨ entry <+: j.place

instance (r : Report) (entry : List String) : Decidable (r.Touches entry) :=
  inferInstanceAs (Decidable (∃ j ∈ r.errors, j.place <+: entry ∨ entry <+: j.place))

/-- An error around a part of an entry concerns the entry. -/
theorem Report.touches_of_prefix {r : Report} {entry place : List String} (he : entry <+: place)
    {j : Issue} (hj : j ∈ r.errors) (h : j.place <+: place) : r.Touches entry := by
  rcases List.prefix_or_prefix_of_prefix h he with hp | hp
  · exact ⟨j, hj, Or.inl hp⟩
  · exact ⟨j, hj, Or.inr hp⟩

/-- Keys without points are pieces themselves. -/
theorem Issue.pieces_of_no_points {i : Issue} (h : ∀ k ∈ i.place, '.' ∉ k.toList) :
    i.pieces = i.place := by
  obtain ⟨place, finding⟩ := i
  unfold pieces
  induction place with
  | nil => rfl
  | cons key rest ih =>
    rw [List.forall_mem_cons] at h
    rw [List.flatMap_cons, Text.pieces_of_no_point h.1, ih h.2]
    rfl

namespace Specification

/-- What the checks find about an entry that no error of the shape concerns is
reported exactly if no such error leads to it by its pieces; without points in keys
it always is. -/
theorem untouched_reported_iff [JsonSchema.Engine] {root : Json} {d : Draft}
    (h : (Draft.read root).1 = some d) {s : Settings} {i : Issue} (hi : i ∈ (d.check s).errors) {entry : List String}
    (he : entry <+: i.place) (hu : ¬(Draft.read root).2.Touches entry) :
    ((∃ r, ofJson s root = .error (.rejected r) ∧ i ∈ r.errors) ↔
      ∀ j ∈ (Draft.read root).2.errors, j.path ≠ "" → ¬j.pieces <+: i.pieces) ∧
    ((∀ k ∈ i.place, '.' ∉ k.toList) →
      (∀ j ∈ (Draft.read root).2.errors, ∀ k ∈ j.place, '.' ∉ k.toList) →
      ∃ r, ofJson s root = .error (.rejected r) ∧ i ∈ r.errors) := by
  have hnew : i ∉ (Draft.read root).2.errors := by
    intro hir
    exact hu (Report.touches_of_prefix he hir List.prefix_rfl)
  have hcovers : ¬(Draft.read root).2.Covers i ↔
      ∀ j ∈ (Draft.read root).2.errors, j.path ≠ "" → ¬j.pieces <+: i.pieces := by
    constructor
    · intro hc j hj hne hp
      exact hc ⟨j, hj, hne, (Issue.isBeneath_iff hne).mpr hp⟩
    · rintro H ⟨j, hj, hne, hb⟩
      exact H j hj hne ((Issue.isBeneath_iff hne).mp hb)
  rw [mem_rejection_iff h hi, or_iff_right hnew, hcovers]
  refine ⟨Iff.rfl, ?_⟩
  intro hip hjp j hj hne hp
  rw [Issue.pieces_of_no_points hip, Issue.pieces_of_no_points (hjp j hj)] at hp
  exact hu (Report.touches_of_prefix he hj hp)

/-- A root with two definitions: one cannot be read, and the other one requires a
definition that does not exist. -/
def twoDefinitions (unreadable incomplete : String) : Json :=
  .object [("cddlDefinitions", .object [(unreadable, .null),
    (incomplete, .object [("def", .string ""), ("requires", .array [.string "clock"])])])]

/-- What the checks find about the second definition. -/
def missingClock (incomplete : String) : Issue :=
  ⟨["cddlDefinitions", incomplete, "requires"], .danglingRequirement "clock"⟩

/-- Beside a definition that cannot be read the requirements of another one are
checked. -/
theorem missingClock_reported :
    ∃ r, ofJson .default (twoDefinitions "uuid" "time") = .error (.rejected r) ∧
      missingClock "time" ∈ r.errors := by
  obtain ⟨d, hread, hfound⟩ : ∃ d, (Draft.read (twoDefinitions "uuid" "time")).1 = some d ∧
      missingClock "time" ∈ (d.check .default).errors := ⟨_, rfl, .tail _ (.head _)⟩
  have hentry : ["cddlDefinitions", "time"] <+: (missingClock "time").place := by decide
  have huntouched : ¬(Draft.read (twoDefinitions "uuid" "time")).2.Touches
      ["cddlDefinitions", "time"] := by decide
  exact (untouched_reported_iff hread hfound hentry huntouched).1.mpr (by decide)

/-- A point in the name of the other definition is enough to hide what is found
about it. -/
theorem missingClock_hidden : ∃ d, (Draft.read (twoDefinitions "uuid" "uuid.v7")).1 = some d ∧
    missingClock "uuid.v7" ∈ (d.check .default).errors ∧
    ["cddlDefinitions", "uuid.v7"] <+: (missingClock "uuid.v7").place ∧
    ¬(Draft.read (twoDefinitions "uuid" "uuid.v7")).2.Touches ["cddlDefinitions", "uuid.v7"] ∧
    ¬∃ r, ofJson .default (twoDefinitions "uuid" "uuid.v7") = .error (.rejected r) ∧
      missingClock "uuid.v7" ∈ r.errors := by
  obtain ⟨d, hread, hfound⟩ : ∃ d, (Draft.read (twoDefinitions "uuid" "uuid.v7")).1 = some d ∧
      missingClock "uuid.v7" ∈ (d.check .default).errors := ⟨_, rfl, .tail _ (.head _)⟩
  have hentry : ["cddlDefinitions", "uuid.v7"] <+: (missingClock "uuid.v7").place := by decide
  have huntouched : ¬(Draft.read (twoDefinitions "uuid" "uuid.v7")).2.Touches
      ["cddlDefinitions", "uuid.v7"] := by decide
  refine ⟨d, hread, hfound, hentry, huntouched, ?_⟩
  rw [mem_rejection_iff hread hfound]
  rintro (hold | hcovers)
  · exact huntouched (Report.touches_of_prefix hentry hold List.prefix_rfl)
  · exact hcovers (by decide)

end Specification

end SignedDocs
