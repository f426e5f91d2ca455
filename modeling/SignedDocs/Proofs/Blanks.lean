import Mathlib.Data.List.DropRight
import SignedDocs.Proofs.MarkedParts

/-!
Blanks at the ends of a text and of its lines.

* `trim_eq_empty_iff`, `trim_trim`: only blanks leave nothing, and trimming once is enough.
* `Framed`: texts with visible characters at both ends.
* `trim_append_framed`: trimming reaches up to a framed text at the end, and not into it.
* `trimEnd_append`: trimming the end reaches into the first part only if the second one is blank.
* `map_trimEnd_lines`: the lines of a text with a visible end are its pieces between line feeds, if
  blanks at their ends, carriage returns among them, do not count.
-/

namespace SignedDocs.Text

/-! ## Blanks at the ends -/

theorem trimStartChars_append (cs ds : List Char) :
    trimStartChars (cs ++ ds) =
      if trimStartChars cs = [] then trimStartChars ds else trimStartChars cs ++ ds := by
  unfold trimStartChars
  rw [List.dropWhile_append]
  simp only [List.isEmpty_iff]

theorem trimStartChars_trimStartChars (cs : List Char) :
    trimStartChars (trimStartChars cs) = trimStartChars cs :=
  List.dropWhile_idempotent isBlank cs

theorem trimEndChars_concat {c : Char} (h : isBlank c = false) (cs : List Char) :
    trimEndChars (cs ++ [c]) = cs ++ [c] :=
  List.rdropWhile_concat_neg isBlank cs c (by simp [h])

/-- A visible character at the end is the end of the trimmed text. -/
theorem trimChars_concat {c : Char} (h : isBlank c = false) (cs : List Char) :
    trimChars (cs ++ [c]) = trimStartChars (cs ++ [c]) := by
  unfold trimChars
  rw [trimStartChars_append, trimStartChars_cons h]
  by_cases hcs : trimStartChars cs = []
  · rw [if_pos hcs]
    exact trimEndChars_concat h []
  · rw [if_neg hcs]
    exact trimEndChars_concat h _

/-- Only blank characters leave nothing. -/
theorem trimChars_eq_nil_iff {cs : List Char} : trimChars cs = [] ↔ trimStartChars cs = [] := by
  constructor
  · intro h
    have hblank : ∀ c ∈ trimStartChars cs, isBlank c = true := List.rdropWhile_eq_nil_iff.mp h
    rw [← trimStartChars_trimStartChars]
    exact List.dropWhile_eq_nil_iff.mpr hblank
  · intro h
    unfold trimChars
    rw [h]
    rfl

theorem trimStartChars_trimEndChars {cs : List Char} (h : trimStartChars cs = cs) :
    trimStartChars (trimEndChars cs) = trimEndChars cs := by
  obtain ⟨rest, hrest⟩ : trimEndChars cs <+: cs := List.rdropWhile_prefix isBlank cs
  cases hends : trimEndChars cs with
  | nil => rfl
  | cons c ds =>
    -- the first character is that of the whole text, and it is not blank
    rw [hends] at hrest
    rw [← hrest] at h
    have hc := List.dropWhile_eq_self_iff.mp h (Nat.zero_lt_succ _)
    exact trimStartChars_cons (Bool.eq_false_iff.mpr hc) ds

theorem trimChars_trimChars (cs : List Char) : trimChars (trimChars cs) = trimChars cs := by
  have hstart : trimStartChars (trimChars cs) = trimChars cs :=
    trimStartChars_trimEndChars (trimStartChars_trimStartChars cs)
  unfold trimChars at hstart ⊢
  rw [hstart]
  exact List.rdropWhile_idempotent isBlank _

theorem toList_trim (s : String) : (trim s).toList = trimChars s.toList := String.toList_ofList

theorem trim_trim (s : String) : trim (trim s) = trim s := by
  rw [← String.toList_inj, toList_trim, toList_trim, trimChars_trimChars]

theorem trim_eq_empty_iff {s : String} : trim s = "" ↔ trimStartChars s.toList = [] := by
  rw [← String.toList_inj, toList_trim]
  exact trimChars_eq_nil_iff

/-! ## Framed texts -/

/-- The text begins with a visible character. -/
def Opens (s : String) : Prop := ∃ c cs, s.toList = c :: cs ∧ isBlank c = false

/-- The text ends with a visible character. -/
def Closes (s : String) : Prop := ∃ cs c, s.toList = cs ++ [c] ∧ isBlank c = false

/-- Both ends of the text are visible. -/
def Framed (s : String) : Prop := Opens s ∧ Closes s

theorem Opens.append {s : String} (h : Opens s) (t : String) : Opens (s ++ t) := by
  obtain ⟨c, cs, hc, hvisible⟩ := h
  exact ⟨c, cs ++ t.toList, by simp [hc], hvisible⟩

theorem Closes.append {t : String} (h : Closes t) (s : String) : Closes (s ++ t) := by
  obtain ⟨cs, c, hc, hvisible⟩ := h
  exact ⟨s.toList ++ cs, c, by simp [hc], hvisible⟩

theorem framed_join {sep : String} {parts : List String} (hne : parts ≠ [])
    (h : ∀ p ∈ parts, Framed p) : Framed (join sep parts) := by
  induction parts with
  | nil => exact absurd rfl hne
  | cons p rest ih =>
    rw [List.forall_mem_cons] at h
    cases rest with
    | nil => exact h.1
    | cons q rest =>
      unfold join at ih ⊢
      rw [String.intercalate_cons_cons]
      have hrest := ih (List.cons_ne_nil q rest) h.2
      exact ⟨(h.1.1.append sep).append _, hrest.2.append _⟩

/-- Trimming does not reach into a framed text on the last lines; a blank text before it goes with
its line break. -/
theorem trim_append_framed {t : String} (ht : Framed t) (s : String) :
    trim (s ++ "\n" ++ t) =
      if trim s = "" then t else String.ofList (trimStartChars s.toList) ++ "\n" ++ t := by
  obtain ⟨⟨c, cs, hc, hvisible⟩, ds, d, hd, hvisible'⟩ := ht
  have hline : trimStartChars ('\n' :: t.toList) = t.toList := by
    rw [hc]
    exact trimStartChars_cons hvisible cs
  have htext : (s ++ "\n" ++ t).toList = s.toList ++ '\n' :: t.toList := by simp
  have hlast : s.toList ++ '\n' :: t.toList = s.toList ++ '\n' :: ds ++ [d] := by simp [hd]
  have htrim : trimChars (s.toList ++ '\n' :: t.toList) =
      if trimStartChars s.toList = [] then t.toList
      else trimStartChars s.toList ++ '\n' :: t.toList := by
    rw [hlast, trimChars_concat hvisible', ← hlast, trimStartChars_append, hline]
  rw [← String.toList_inj, toList_trim, htext, htrim]
  by_cases hs : trimStartChars s.toList = []
  · rw [if_pos hs, if_pos (trim_eq_empty_iff.mpr hs)]
  · rw [if_neg hs, if_neg fun h => hs (trim_eq_empty_iff.mp h)]
    simp

theorem closes_trim {s : String} (h : trim s ≠ "") : Closes (trim s) := by
  have hne : trimChars s.toList ≠ [] := by
    rwa [← toList_trim, Ne, String.toList_eq_nil_iff]
  have hlast := List.rdropWhile_last_not isBlank (trimStartChars s.toList) hne
  refine ⟨(trimChars s.toList).dropLast, (trimChars s.toList).getLast hne, ?_, ?_⟩
  · rw [toList_trim, List.dropLast_concat_getLast]
  · exact Bool.eq_false_iff.mpr hlast

/-! ## Blanks at one end -/

theorem toList_trimEnd (s : String) : (trimEnd s).toList = trimEndChars s.toList :=
  String.toList_ofList

theorem trimEndChars_append (cs ds : List Char) :
    trimEndChars (cs ++ ds) =
      if trimEndChars ds = [] then trimEndChars cs else cs ++ trimEndChars ds := by
  unfold trimEndChars
  rw [List.reverse_append, List.dropWhile_append]
  simp only [List.isEmpty_iff, List.reverse_eq_nil_iff]
  split
  · rfl
  · rw [List.reverse_append, List.reverse_reverse]

theorem trimEnd_append (s t : String) :
    trimEnd (s ++ t) = if trimEnd t = "" then trimEnd s else s ++ trimEnd t := by
  have hblank : trimEnd t = "" ↔ trimEndChars t.toList = [] := by
    rw [← String.toList_eq_nil_iff, toList_trimEnd]
  rw [← String.toList_inj, toList_trimEnd, String.toList_append, trimEndChars_append]
  by_cases ht : trimEnd t = ""
  · rw [if_pos ht, if_pos (hblank.mp ht), toList_trimEnd]
  · rw [if_neg ht, if_neg fun h => ht (hblank.mpr h), String.toList_append, toList_trimEnd]

/-- A carriage return at the end of a line is a blank like others. -/
theorem trimEndChars_dropReturn (cs : List Char) :
    trimEndChars (dropReturn cs) = trimEndChars cs := by
  unfold dropReturn
  split
  case isTrue h =>
    have hreturn : trimEndChars (cs.dropLast ++ ['\r']) = trimEndChars cs.dropLast :=
      List.rdropWhile_concat_pos isBlank cs.dropLast '\r' rfl
    rw [← hreturn, List.dropLast_append_getLast? '\r' h]
  case isFalse => rfl

/-! ## Lines -/

/-- The last piece is a line only if it is not empty. -/
theorem lines_of_cut {s : String} {parts : List String} {last : String}
    (hcut : cut '\n' s = parts ++ [last]) :
    lines s = parts.map (fun p => String.ofList (dropReturn p.toList)) ++
      if last = "" then [] else [last] := by
  have hpieces : s.toList.splitOn '\n' = parts.map String.toList ++ [last.toList] := by
    have htexts := congrArg (List.map String.toList) hcut
    simpa [cut, Function.comp_def] using htexts
  unfold lines lineChars
  rw [hpieces]
  by_cases hlast : last = ""
  · simp [hlast, Function.comp_def]
  · simp [hlast, Function.comp_def]

theorem exists_cut_eq_concat (s : String) : ∃ parts last, cut '\n' s = parts ++ [last] :=
  (List.eq_nil_or_concat' (cut '\n' s)).resolve_left (cut_ne_nil '\n' s)

theorem lines_eq_nil_iff {s : String} : lines s = [] ↔ s = "" := by
  constructor
  · intro h
    obtain ⟨parts, last, hcut⟩ := exists_cut_eq_concat s
    rw [lines_of_cut hcut, List.append_eq_nil_iff, List.map_eq_nil_iff] at h
    obtain ⟨rfl, hlast⟩ := h
    have htext : join "\n" (cut '\n' s) = s := join_cut '\n' s
    rw [hcut] at htext
    split at hlast
    case isTrue hempty =>
      rw [← htext, hempty]
      rfl
    case isFalse => cases hlast
  · rintro rfl
    rfl

theorem notMem_of_mem_lines {s line : String} (h : line ∈ lines s) : '\n' ∉ line.toList := by
  obtain ⟨parts, last, hcut⟩ := exists_cut_eq_concat s
  have hpieces : ∀ p ∈ parts ++ [last], '\n' ∉ p.toList := by
    rw [← hcut]
    exact fun _ => notMem_of_mem_cut
  rw [lines_of_cut hcut] at h
  rcases List.mem_append.mp h with hparts | hlast
  · obtain ⟨p, hp, rfl⟩ := List.mem_map.mp hparts
    have hpiece := hpieces p (List.mem_append_left [last] hp)
    rw [String.toList_ofList]
    unfold dropReturn
    split
    · exact fun hfeed => hpiece ((List.dropLast_sublist _).subset hfeed)
    · exact hpiece
  · split at hlast
    · cases hlast
    · exact hpieces line (List.mem_append_right parts hlast)

theorem dropReturn_of_notMem {cs : List Char} (h : '\r' ∉ cs) : dropReturn cs = cs :=
  if_neg fun hlast => h (List.mem_of_getLast? hlast)

/-- Lines that are joined are found again, if they have no line breaks and none is empty. -/
theorem lines_join {parts : List String}
    (h : ∀ p ∈ parts, p ≠ "" ∧ '\n' ∉ p.toList ∧ '\r' ∉ p.toList) :
    lines (join "\n" parts) = parts := by
  rcases List.eq_nil_or_concat' parts with rfl | ⟨first, last, rfl⟩
  · rfl
  have hcut : cut '\n' (join "\n" (first ++ [last])) = first ++ [last] :=
    cut_join (List.concat_ne_nil last first) fun p hp => (h p hp).2.1
  have hlast := (h last (List.mem_append_right first List.mem_cons_self)).1
  have hfirst : first.map (fun p => String.ofList (dropReturn p.toList)) = first := by
    refine (List.map_congr_left fun p hp => ?_).trans (List.map_id first)
    rw [dropReturn_of_notMem (h p (List.mem_append_left [last] hp)).2.2, String.ofList_toList]
    rfl
  rw [lines_of_cut hcut, if_neg hlast, hfirst]

/-- A text with a visible end does not end with a line break. -/
theorem ne_empty_of_cut {s : String} (h : Closes s) {parts : List String} {last : String}
    (hcut : cut '\n' s = parts ++ [last]) : last ≠ "" := by
  rintro rfl
  obtain ⟨cs, c, hc, hvisible⟩ := h
  have htext : join "\n" (cut '\n' s) = s := join_cut '\n' s
  rw [hcut] at htext
  cases parts with
  | nil =>
    rw [← htext] at hc
    simp [join] at hc
  | cons p parts =>
    have hjoin : join "\n" (p :: parts ++ [""]) = join "\n" (p :: parts) ++ "\n" ++ "" :=
      String.intercalate_append_of_ne_nil (List.cons_ne_nil p parts) (List.cons_ne_nil "" [])
    have hend : (join "\n" (p :: parts)).toList ++ ['\n'] = cs ++ [c] := by
      rw [← hc, ← htext, hjoin]
      simp
    obtain ⟨-, hfeed⟩ := List.append_inj' hend rfl
    rw [← List.singleton_inj.mp hfeed] at hvisible
    exact absurd hvisible (by decide)

/-- Blanks at their ends apart, the lines are the pieces between line feeds. -/
theorem map_trimEnd_lines {s : String} (h : Closes s) :
    (lines s).map trimEnd = (cut '\n' s).map trimEnd := by
  obtain ⟨parts, last, hcut⟩ := exists_cut_eq_concat s
  have hparts : ∀ p ∈ parts, trimEnd (String.ofList (dropReturn p.toList)) = trimEnd p := by
    intro p _
    rw [← String.toList_inj, toList_trimEnd, toList_trimEnd, String.toList_ofList,
      trimEndChars_dropReturn]
  rw [lines_of_cut hcut, if_neg (ne_empty_of_cut h hcut), hcut, List.map_append, List.map_append,
    List.map_map, List.append_left_inj]
  exact List.map_congr_left hparts

end SignedDocs.Text
