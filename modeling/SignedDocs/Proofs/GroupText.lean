import SignedDocs.Cddl.Group
import SignedDocs.Proofs.Blanks

/-!
The text of a group, row by row.

* `Group.rows`: what a group says. A plain entry is one row; a choice has one for each of its
  entries, within the parentheses of an optional group.
* `Group.Shows`: a text that says this and nothing else, each row two columns to the right.
* `shows_text`: the text of a group shows the group, and no other text does (`Shows.unique`).

Labels and types may break lines themselves; then a row goes on in the next line, and carriage
returns before line feeds are lost.
-/

namespace SignedDocs.Cddl

open Text (cut join)

/-! ## Rows -/

/-- The entries of a choice, two columns to the right; after each but the last one stands the sign
for an alternative. -/
def alternatives : List Entry → List String
  | [] => []
  | [e] => ["  " ++ e.label ++ " => " ++ e.type]
  | e :: next :: es => ("  " ++ e.label ++ " => " ++ e.type ++ " //") :: alternatives (next :: es)

/-- An entry that may be left out is marked, and so is a choice. -/
def Part.rows : Part → List String
  | .plain optional e => [(if optional then "?" else "") ++ e.label ++ " => " ++ e.type]
  | .choice es => "? (" :: alternatives es ++ [")"]

theorem alternatives_cons_ne_nil (e : Entry) (es : List Entry) : alternatives (e :: es) ≠ [] := by
  cases es <;> exact List.cons_ne_nil _ _

theorem join_alternatives {es : List Entry} (h : es ≠ []) :
    join "\n" (alternatives es) = "  " ++ join " //\n  " (es.map Group.entryText) := by
  induction es with
  | nil => exact absurd rfl h
  | cons e es ih =>
    cases es with
    | nil => simp [alternatives, Group.entryText, join, String.append_assoc]
    | cons next es =>
      have hrow : join "\n" (alternatives (e :: next :: es)) =
          "  " ++ e.label ++ " => " ++ e.type ++ " //" ++ "\n" ++
            join "\n" (alternatives (next :: es)) :=
        String.intercalate_cons_of_ne_nil (alternatives_cons_ne_nil next es)
      have hentry : join " //\n  " ((e :: next :: es).map Group.entryText) =
          Group.entryText e ++ " //\n  " ++ join " //\n  " ((next :: es).map Group.entryText) :=
        String.intercalate_cons_cons
      have hsign : " //\n  " = " //" ++ "\n" ++ "  " := rfl
      rw [hrow, hentry, ih (List.cons_ne_nil next es)]
      generalize join " //\n  " ((next :: es).map Group.entryText) = rest
      rw [hsign]
      simp only [Group.entryText, String.append_assoc]

/-- No choice is empty. -/
def Group.Choosable (g : Group) : Prop := ∀ es, Part.choice es ∈ g → es ≠ []

theorem Part.rows_ne_nil (p : Part) : p.rows ≠ [] := by
  cases p <;> exact List.cons_ne_nil _ _

theorem Part.join_rows {p : Part} (h : ∀ es, p = .choice es → es ≠ []) :
    join "\n" p.rows = Group.partText p := by
  cases p with
  | plain optional e => simp [rows, Group.partText, Group.entryText, join, String.append_assoc]
  | choice es =>
    have hes := h es rfl
    obtain ⟨e, rest, rfl⟩ := List.exists_cons_of_ne_nil hes
    have hopen : join "\n" (Part.rows (.choice (e :: rest))) =
        "? (" ++ "\n" ++ join "\n" (alternatives (e :: rest) ++ [")"]) :=
      String.intercalate_cons_of_ne_nil (by simp)
    have hclose : join "\n" (alternatives (e :: rest) ++ [")"]) =
        join "\n" (alternatives (e :: rest)) ++ "\n" ++ ")" := by
      refine (String.intercalate_append_of_ne_nil (alternatives_cons_ne_nil e rest)
        (List.cons_ne_nil _ _)).trans ?_
      rw [String.intercalate_singleton]
      rfl
    have hopening : "? (\n  " = "? (" ++ "\n" ++ "  " := rfl
    have hclosing : "\n)" = "\n" ++ ")" := rfl
    rw [hopen, hclose, join_alternatives hes]
    show _ = "? (\n  " ++ join " //\n  " ((e :: rest).map Group.entryText) ++ "\n)"
    generalize join " //\n  " ((e :: rest).map Group.entryText) = choice
    rw [hopening, hclosing]
    simp only [String.append_assoc]

namespace Group

/-- All that a group says, in the order of its parts. -/
def rows (g : Group) : List String := g.flatMap Part.rows

theorem join_rows {g : Group} (h : g.Choosable) : join "\n" g.rows = join "\n" (g.map partText) := by
  induction g with
  | nil => rfl
  | cons p g ih =>
    have hfirst : join "\n" p.rows = partText p :=
      Part.join_rows fun es hp => h es (hp ▸ List.mem_cons_self)
    have hrest := ih fun es hes => h es (List.mem_cons_of_mem p hes)
    cases g with
    | nil =>
      show join "\n" (p.rows ++ []) = join "\n" [partText p]
      rw [List.append_nil, hfirst]
      exact String.intercalate_singleton.symm
    | cons next g =>
      have hne : rows (next :: g) ≠ [] := by
        rw [rows, List.flatMap_cons]
        exact List.append_ne_nil_of_left_ne_nil next.rows_ne_nil _
      calc join "\n" (p.rows ++ rows (next :: g))
          = join "\n" p.rows ++ "\n" ++ join "\n" (rows (next :: g)) :=
            String.intercalate_append_of_ne_nil p.rows_ne_nil hne
        _ = partText p ++ "\n" ++ join "\n" ((next :: g).map partText) := by rw [hfirst, hrest]
        _ = join "\n" ((p :: next :: g).map partText) := String.intercalate_cons_cons.symm

end Group

/-! ## Lines -/

/-- Label and type have no line breaks. -/
def Entry.OneLine (e : Entry) : Prop :=
  ∀ c ∈ ['\n', '\r'], c ∉ e.label.toList ∧ c ∉ e.type.toList

instance (e : Entry) : Decidable e.OneLine :=
  inferInstanceAs (Decidable (∀ c ∈ ['\n', '\r'], c ∉ e.label.toList ∧ c ∉ e.type.toList))

theorem exists_of_mem_alternatives {es : List Entry} {row : String} (h : row ∈ alternatives es) :
    ∃ e ∈ es, ∃ after ∈ ["", " //"], row = "  " ++ e.label ++ " => " ++ e.type ++ after := by
  induction es with
  | nil => cases h
  | cons e es ih =>
    cases es with
    | nil =>
      rw [List.mem_singleton.mp h]
      exact ⟨e, List.mem_cons_self, "", List.mem_cons_self, String.append_empty.symm⟩
    | cons next es =>
      rcases List.mem_cons.mp h with rfl | hrest
      · exact ⟨e, List.mem_cons_self, " //", .tail _ (.head _), rfl⟩
      · obtain ⟨x, hx, hrow⟩ := ih hrest
        exact ⟨x, List.mem_cons_of_mem e hx, hrow⟩

/-- A row is a parenthesis of a choice, or it has an entry. -/
theorem Part.mem_rows {p : Part} {row : String} (h : row ∈ p.rows) : row ∈ ["? (", ")"] ∨
    ∃ e ∈ p.entries, ∃ before ∈ ["", "?", "  "], ∃ after ∈ ["", " //"],
      row = before ++ e.label ++ " => " ++ e.type ++ after := by
  cases p with
  | plain optional e =>
    refine Or.inr ⟨e, List.mem_cons_self, if optional then "?" else "", ?_, "",
      List.mem_cons_self, (List.mem_singleton.mp h).trans String.append_empty.symm⟩
    cases optional <;> decide
  | choice es =>
    rcases List.mem_append.mp h with hopen | hclose
    · rcases List.mem_cons.mp hopen with rfl | hentry
      · exact Or.inl List.mem_cons_self
      · obtain ⟨e, he, hrow⟩ := exists_of_mem_alternatives hentry
        exact Or.inr ⟨e, he, "  ", .tail _ (.tail _ (.head _)), hrow⟩
    · exact Or.inl (List.mem_cons_of_mem _ hclose)

theorem Part.ne_empty_of_mem_rows {p : Part} {row : String} (h : row ∈ p.rows) : row ≠ "" := by
  rcases Part.mem_rows h with hframe | ⟨e, -, before, -, after, -, rfl⟩
  · rintro rfl
    exact absurd hframe (by decide)
  · intro hempty
    have hlist := congrArg String.toList hempty
    simp at hlist

theorem Part.notMem_of_mem_rows {p : Part} (hp : ∀ e ∈ p.entries, e.OneLine) {row : String}
    (h : row ∈ p.rows) {c : Char} (hc : c ∈ ['\n', '\r']) : c ∉ row.toList := by
  have hframe : ∀ c ∈ ['\n', '\r'], ∀ t ∈ ["? (", ")"], c ∉ t.toList := by simp
  have hbefore : ∀ c ∈ ['\n', '\r'], ∀ t ∈ ["", "?", "  "], c ∉ t.toList := by simp
  have hafter : ∀ c ∈ ['\n', '\r'], ∀ t ∈ ["", " //"], c ∉ t.toList := by simp
  have harrow : ∀ c ∈ ['\n', '\r'], c ∉ " => ".toList := by simp
  rcases Part.mem_rows h with hrow | ⟨e, he, before, hb, after, ha, rfl⟩
  · exact hframe c hc row hrow
  · obtain ⟨hlabel, htype⟩ := hp e he c hc
    simp only [String.toList_append, List.mem_append, not_or]
    exact ⟨⟨⟨⟨hbefore c hc before hb, hlabel⟩, harrow c hc⟩, htype⟩, hafter c hc after ha⟩

namespace Group

variable {g : Group}

theorem exists_part_of_mem_rows {row : String} (h : row ∈ g.rows) : ∃ p ∈ g, row ∈ p.rows :=
  List.mem_flatMap.mp h

theorem lines_join_rows (h : ∀ e ∈ g.entries, e.OneLine) :
    Text.lines (join "\n" g.rows) = g.rows := by
  refine Text.lines_join fun row hrow => ?_
  obtain ⟨p, hp, hrow⟩ := exists_part_of_mem_rows hrow
  have hentries : ∀ e ∈ p.entries, e.OneLine := fun e he =>
    h e (List.mem_flatMap.mpr ⟨p, hp, he⟩)
  exact ⟨Part.ne_empty_of_mem_rows hrow, Part.notMem_of_mem_rows hentries hrow (by decide),
    Part.notMem_of_mem_rows hentries hrow (by decide)⟩

theorem join_rows_ne_empty (h : g ≠ []) : join "\n" g.rows ≠ "" := by
  obtain ⟨p, rest, rfl⟩ := List.exists_cons_of_ne_nil h
  obtain ⟨row, more, hrows⟩ := List.exists_cons_of_ne_nil p.rows_ne_nil
  have hrow : row ≠ "" := Part.ne_empty_of_mem_rows (by rw [hrows]; exact List.mem_cons_self)
  rw [rows, List.flatMap_cons, hrows, List.cons_append, Text.join_cons]
  intro hempty
  exact hrow (String.append_eq_empty_iff.mp hempty).1

/-! ## The text -/

/-- The text says the group. A group without parts is an empty pair of parentheses; otherwise the
rows stand between the parentheses, each of their lines two columns to the right. Rows are lines
as long as no label and no type breaks them. -/
structure Shows (g : Group) (text : String) : Prop where
  empty : g = [] → text = "(\n\n)"
  lines : g ≠ [] → cut '\n' text =
    "(" :: (Text.lines (join "\n" g.rows)).map (fun line => "  " ++ line) ++ [")"]
  rows : g ≠ [] → (∀ e ∈ g.entries, e.OneLine) →
    cut '\n' text = "(" :: g.rows.map (fun row => "  " ++ row) ++ [")"]

theorem text_eq (h : g.Choosable) :
    g.text = "(" ++ "\n" ++ indent (join "\n" g.rows) ++ "\n" ++ ")" := by
  have hopening : "(\n" = "(" ++ "\n" := rfl
  have hclosing : "\n)" = "\n" ++ ")" := rfl
  unfold text
  rw [join_rows h, hopening, hclosing]
  generalize indent (join "\n" (g.map partText)) = body
  simp only [String.append_assoc]

/-- Indented lines are found again, and the parentheses around them. -/
theorem cut_text (h : g.Choosable) (hg : g ≠ []) : cut '\n' g.text =
    "(" :: (Text.lines (join "\n" g.rows)).map (fun line => "  " ++ line) ++ [")"] := by
  have hlines : (Text.lines (join "\n" g.rows)).map (fun line => "  " ++ line) ≠ [] := by
    rw [Ne, List.map_eq_nil_iff, Text.lines_eq_nil_iff]
    exact join_rows_ne_empty hg
  have hbody : cut '\n' (indent (join "\n" g.rows)) =
      (Text.lines (join "\n" g.rows)).map (fun line => "  " ++ line) := by
    refine Text.cut_join hlines (List.forall_mem_map.mpr fun line hline => ?_)
    rw [String.toList_append, List.mem_append, not_or]
    exact ⟨by decide, Text.notMem_of_mem_lines hline⟩
  have hopening : cut '\n' "(" = ["("] := Text.cut_of_notMem (by decide)
  have hclosing : cut '\n' ")" = [")"] := Text.cut_of_notMem (by decide)
  have hsplit := (Text.cut_append '\n' ("(" ++ "\n" ++ indent (join "\n" g.rows)) ")").trans
    (congrArg (· ++ cut '\n' ")") (Text.cut_append '\n' "(" (indent (join "\n" g.rows))))
  rw [text_eq h]
  rw [hopening, hbody, hclosing] at hsplit
  exact hsplit

/-- The text of a group shows the group. -/
theorem shows_text (h : g.Choosable) : g.Shows g.text where
  empty hg := by
    subst hg
    rfl
  lines := cut_text h
  rows hg hentries := by rw [cut_text h hg, lines_join_rows hentries]

/-- There is only one such text. -/
theorem Shows.unique {text other : String} (h : g.Shows text) (h' : g.Shows other) :
    text = other := by
  by_cases hg : g = []
  · rw [h.empty hg, h'.empty hg]
  · rw [← Text.join_cut '\n' text, ← Text.join_cut '\n' other, h.lines hg, h'.lines hg]

end Group

end SignedDocs.Cddl
