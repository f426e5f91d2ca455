import SignedDocs.Date

/-!
Texts of dates: what is written is read as the same day (`Date.parse_render`).

* `number_append`: digits are read as the number they were written for, up to the first
  character that is no digit.
* `yearField_yearChars`, `smallField_padded`: part by part.
-/

namespace SignedDocs.Date

/-! ## Digits -/

theorem splitDigits_append {width : Nat} {ds rest : List Char} (hds : ∀ c ∈ ds, c.isDigit)
    (hwidth : ds.length ≤ width) (hrest : ∀ c ∈ rest.head?, ¬c.isDigit) :
    splitDigits width (ds ++ rest) = (ds, rest) := by
  have hstop : (rest.take (width - ds.length)).takeWhile Char.isDigit = [] := by
    cases rest with
    | nil => simp
    | cons c rest =>
      have hc : ¬c.isDigit := hrest c rfl
      cases width - ds.length with
      | zero => rfl
      | succ n => simp [hc]
  unfold splitDigits
  rw [List.take_append, List.take_of_length_le hwidth, List.takeWhile_append_of_pos hds, hstop]
  simp

theorem isDigit_of_mem_padded {width n : Nat} {c : Char} (h : c ∈ padded width n) : c.isDigit := by
  unfold padded at h
  rcases List.mem_append.mp h with h | h
  · rw [List.eq_of_mem_replicate h]
    rfl
  · exact Nat.isDigit_of_mem_toDigits (by decide) (by decide) h

/-- At least one digit is written. -/
theorem exists_padded_eq_cons (width n : Nat) :
    ∃ c cs, padded width n = c :: cs ∧ c.isDigit := by
  cases h : padded width n with
  | nil =>
    have hnil : Nat.toDigits 10 n = [] := (List.append_eq_nil_iff.mp h).2
    exact absurd hnil Nat.toDigits_ne_nil
  | cons c cs => exact ⟨c, cs, rfl, isDigit_of_mem_padded (h ▸ List.mem_cons_self)⟩

/-- Numbers that have no more digits than the width are written with exactly as many. -/
theorem length_padded {width n : Nat} (hwidth : 0 < width) (h : n < Nat.pow 10 width) :
    (padded width n).length = width := by
  have hle : (Nat.toDigits 10 n).length ≤ width :=
    (Nat.length_toDigits_le_iff (by decide) hwidth).mpr h
  unfold padded
  rw [List.length_append, List.length_replicate]
  omega

/-- Zeros in front do not count. -/
theorem value_padded (width n : Nat) :
    (padded width n).foldl (fun n c => 10 * n + (c.toNat - '0'.toNat)) 0 = n := by
  show Nat.ofDigitChars 10 (padded width n) 0 = n
  unfold padded
  rw [Nat.ofDigitChars_append, Nat.ofDigitChars_replicate_zero, Nat.mul_zero,
    Nat.ofDigitChars_ten_toDigits]

/-- Digits are read as their number, and what follows them is left. -/
theorem number_append {width n limit : Nat} {rest : List Char}
    (hlimit : (padded width n).length ≤ limit) (hn : n < Nat.pow 2 63)
    (hrest : ∀ c ∈ rest.head?, ¬c.isDigit) :
    number limit (padded width n ++ rest) = .ok (n, rest) := by
  obtain ⟨c, cs, hcs, -⟩ := exists_padded_eq_cons width n
  have hsplit : splitDigits limit (padded width n ++ rest) = (padded width n, rest) :=
    splitDigits_append (fun _ => isDigit_of_mem_padded) hlimit hrest
  have hsmall : ¬Nat.pow 2 63 ≤ n := by omega
  have hvalue := value_padded width n
  rw [hcs] at hsplit hvalue ⊢
  rw [List.cons_append] at hsplit ⊢
  unfold number
  simp only [hsplit, hvalue, List.isEmpty_cons, hsmall, if_false, Bool.false_eq_true]

/-! ## Parts of a date -/

theorem isBlank_of_isDigit {c : Char} (h : c.isDigit) : Text.isBlank c = false := by
  have hrange : 48 ≤ c.toNat ∧ c.toNat ≤ 57 := by
    rw [Char.isDigit, Bool.and_eq_true, decide_eq_true_iff, decide_eq_true_iff] at h
    exact h
  simp only [Text.isBlank, Text.inRanges, Text.blankRanges, List.any_cons, List.any_nil,
    Bool.or_false, Bool.or_eq_false_iff, Bool.and_eq_false_iff, decide_eq_false_iff_not]
  omega

theorem smallField_padded {top n : Nat} {rest : List Char} (hn : 1 ≤ n) (htop : n ≤ top)
    (hwidth : top < 100) (hrest : ∀ c ∈ rest.head?, ¬c.isDigit) :
    smallField top (padded 2 n ++ rest) = .ok (n, rest) := by
  obtain ⟨c, cs, hcs, hc⟩ := exists_padded_eq_cons 2 n
  have hlength : (padded 2 n).length = 2 := length_padded (by decide) (show n < 100 by omega)
  have hsmall : n < Nat.pow 2 63 := Nat.lt_trans (by omega) (by decide : 100 < Nat.pow 2 63)
  have hnumber : number 2 (padded 2 n ++ rest) = .ok (n, rest) :=
    number_append (Nat.le_of_eq hlength) hsmall hrest
  have htrim : Text.trimStartChars (padded 2 n ++ rest) = padded 2 n ++ rest := by
    rw [hcs]
    exact Text.trimStartChars_cons (isBlank_of_isDigit hc) _
  have hrange : ¬(n < 1 ∨ top < n) := by omega
  unfold smallField
  rw [htrim, hnumber]
  exact if_neg hrange

section Year

variable {n : Nat} {cs rest : List Char}

theorem yearField_minus (hnumber : number cs.length cs = .ok (n, rest))
    (hyear : IsSigned 31 (-(n : Int))) : yearField ('-' :: cs) = .ok (-(n : Int), rest) := by
  unfold yearField
  rw [Text.trimStartChars_cons rfl]
  simp [hnumber, hyear, Except.map, bind, Except.bind, pure, Except.pure]

theorem yearField_plus (hnumber : number cs.length cs = .ok (n, rest))
    (hyear : IsSigned 31 (n : Int)) : yearField ('+' :: cs) = .ok ((n : Int), rest) := by
  unfold yearField
  rw [Text.trimStartChars_cons rfl]
  simp [hnumber, hyear, Except.map, bind, Except.bind, pure, Except.pure]

theorem yearField_digit {c : Char} (hc : c.isDigit) (hnumber : number 4 (c :: cs) = .ok (n, rest))
    (hyear : IsSigned 31 (n : Int)) : yearField (c :: cs) = .ok ((n : Int), rest) := by
  unfold yearField
  rw [Text.trimStartChars_cons (isBlank_of_isDigit hc)]
  split
  · rename_i heq
    cases heq
    exact absurd hc (by decide)
  · rename_i heq
    cases heq
    exact absurd hc (by decide)
  · simp [hnumber, hyear, Except.map, bind, Except.bind, pure, Except.pure]

end Year

/-- A year is read up to the hyphen behind it, whether it has a sign or not. -/
theorem yearField_yearChars {year : Int} (h : IsSigned 31 year) (rest : List Char) :
    yearField (yearChars year ++ '-' :: rest) = .ok (year, '-' :: rest) := by
  have hstop : ∀ c ∈ ('-' :: rest).head?, ¬c.isDigit := by
    rintro c ⟨⟩
    decide
  have hsmall : year.natAbs < Nat.pow 2 63 := by
    have hbound : (Nat.pow 2 31 : Nat) < Nat.pow 2 63 := by decide
    obtain ⟨hlow, hhigh⟩ := h
    omega
  have hsigned : number (padded 4 year.natAbs ++ '-' :: rest).length
      (padded 4 year.natAbs ++ '-' :: rest) = .ok (year.natAbs, '-' :: rest) :=
    number_append (by simp) hsmall hstop
  unfold yearChars
  by_cases hneg : year < 0
  · have habs : -(year.natAbs : Int) = year := by omega
    have hread := yearField_minus hsigned (habs.symm ▸ h)
    rw [if_pos hneg, List.cons_append, hread, habs]
  · have habs : (year.natAbs : Int) = year := by omega
    rw [if_neg hneg]
    by_cases hlong : 9999 < year
    · have hread := yearField_plus hsigned (habs.symm ▸ h)
      rw [if_pos hlong, List.cons_append, hread, habs]
    · have hlength : (padded 4 year.natAbs).length = 4 :=
        length_padded (by decide) (show year.natAbs < 10000 by omega)
      have hplain : number 4 (padded 4 year.natAbs ++ '-' :: rest) =
          .ok (year.natAbs, '-' :: rest) :=
        number_append (Nat.le_of_eq hlength) hsmall hstop
      obtain ⟨c, cs, hcs, hc⟩ := exists_padded_eq_cons 4 year.natAbs
      rw [hcs, List.cons_append] at hplain
      have hread := yearField_digit hc hplain (habs.symm ▸ h)
      rw [if_neg hlong, hcs, List.cons_append, hread, habs]

/-! ## Whole dates -/

theorem toList_render (d : Date) : d.render.toList =
    yearChars d.year ++ '-' :: (padded 2 d.month ++ '-' :: (padded 2 d.day ++ [])) := by
  unfold render
  simp

theorem daysInMonth_le (year : Int) (month : Nat) : daysInMonth year month ≤ 31 := by
  unfold daysInMonth
  split
  · split <;> decide
  · split <;> decide

/-- A date that is written is read as the same day. -/
theorem parse_render (d : Date) : parse d.render = .ok d := by
  obtain ⟨hlow, hhigh, hmonth, hmonths, hday, hdays⟩ := d.isDate
  have hyear : IsSigned 31 d.year := by
    have hbound : (Nat.pow 2 31 : Nat) = 2147483648 := by decide
    unfold IsSigned
    omega
  have hstop : ∀ cs : List Char, ∀ c ∈ ('-' :: cs).head?, ¬c.isDigit := by
    rintro cs c ⟨⟩
    decide
  have hshort : d.day ≤ 31 := Nat.le_trans hdays (daysInMonth_le d.year d.month)
  have hreadYear := yearField_yearChars hyear (padded 2 d.month ++ '-' :: (padded 2 d.day ++ []))
  have hreadMonth := smallField_padded hmonth hmonths (by decide) (hstop (padded 2 d.day ++ []))
  have hreadDay : smallField 31 (padded 2 d.day ++ []) = .ok (d.day, []) :=
    smallField_padded hday hshort (by decide) nofun
  unfold parse
  rw [toList_render, hreadYear]
  show (smallField 12 _ >>= _) = _
  rw [hreadMonth]
  show (smallField 31 _ >>= _) = _
  rw [hreadDay]
  exact dif_pos d.isDate

end SignedDocs.Date
