import Mathlib.Algebra.GroupWithZero.Nat
import SignedDocs.Uuid

/-!
Texts of identifiers: what is written, in groups or without hyphens, is read as the same
identifier (`Uuid.read_hyphenated`, `Uuid.read_simple`).

* `chunks`: pieces of a list have their lengths and make up the list.
* `ofDigits_digits`: 32 digits stand for the 128 bits.
* `unwrap_hexDigit`: a text that begins with a digit has neither braces nor the scheme.
* `notMem_simple`, `notMem_hyphenated`: both texts consist of digits, the latter of hyphens, too.
-/

namespace SignedDocs.Uuid

/-! ## Pieces -/

theorem map_length_chunks {α : Type} (lengths : List Nat) (as : List α)
    (h : lengths.sum ≤ as.length) : (chunks lengths as).map List.length = lengths := by
  induction lengths generalizing as with
  | nil => rfl
  | cons n lengths ih =>
    rw [List.sum_cons] at h
    have hrest : lengths.sum ≤ (as.drop n).length := by
      rw [List.length_drop]
      omega
    unfold chunks
    rw [List.map_cons, ih _ hrest, List.length_take, Nat.min_eq_left (by omega)]

theorem flatten_chunks {α : Type} (lengths : List Nat) (as : List α)
    (h : as.length ≤ lengths.sum) : (chunks lengths as).flatten = as := by
  induction lengths generalizing as with
  | nil =>
    rw [List.sum_nil, Nat.le_zero, List.length_eq_zero_iff] at h
    subst h
    rfl
  | cons n lengths ih =>
    rw [List.sum_cons] at h
    have hrest : (as.drop n).length ≤ lengths.sum := by
      rw [List.length_drop]
      omega
    unfold chunks
    rw [List.flatten_cons, ih _ hrest, List.take_append_drop]

theorem mem_of_mem_chunks {α : Type} {lengths : List Nat} {as piece : List α} {a : α}
    (hpiece : piece ∈ chunks lengths as) (ha : a ∈ piece) : a ∈ as := by
  induction lengths generalizing as with
  | nil => cases hpiece
  | cons n lengths ih =>
    rcases List.mem_cons.mp hpiece with rfl | hrest
    · exact List.mem_of_mem_take ha
    · exact List.mem_of_mem_drop (ih hrest)

theorem mem_of_mem_intercalate {α : Type} {sep : List α} {pieces : List (List α)} {a : α}
    (h : a ∈ sep.intercalate pieces) : a ∈ sep ∨ ∃ piece ∈ pieces, a ∈ piece := by
  induction pieces with
  | nil => cases h
  | cons piece pieces ih =>
    cases pieces with
    | nil =>
      rw [List.intercalate_singleton] at h
      exact Or.inr ⟨piece, List.mem_cons_self, h⟩
    | cons next pieces =>
      rw [List.intercalate_cons_cons, List.mem_append, List.mem_append] at h
      rcases h with (h | h) | h
      · exact Or.inr ⟨piece, List.mem_cons_self, h⟩
      · exact Or.inl h
      · refine (ih h).imp_right ?_
        rintro ⟨other, hother, h⟩
        exact ⟨other, List.mem_cons_of_mem _ hother, h⟩

/-! ## Digits -/

theorem lt_of_mem_toHex {count n d : Nat} (h : d ∈ Text.toHex count n) : d < 16 := by
  induction count generalizing n with
  | zero => cases h
  | succ count ih =>
    rcases List.mem_append.mp h with h | h
    · exact ih h
    · rw [List.mem_singleton.mp h]
      exact Nat.mod_lt n (by decide)

theorem length_digitChars (id : Uuid) : id.digitChars.length = 32 := by
  unfold digitChars digits
  rw [List.length_map, Text.length_toHex]

/-- All characters are hexadecimal digits. -/
theorem isSome_of_mem_digitChars {id : Uuid} {c : Char} (h : c ∈ id.digitChars) :
    (Text.hexValue? c).isSome := by
  obtain ⟨d, hd, rfl⟩ := List.mem_map.mp h
  rw [Text.hexValue?_hexDigit d (lt_of_mem_toHex hd)]
  rfl

theorem mapM_hexValue?_hexDigit {ds : List Nat} (h : ∀ d ∈ ds, d < 16) :
    (ds.map Text.hexDigit).mapM Text.hexValue? = some ds := by
  induction ds with
  | nil => rfl
  | cons d ds ih =>
    rw [List.forall_mem_cons] at h
    rw [List.map_cons, List.mapM_cons, Text.hexValue?_hexDigit d h.1, ih h.2]
    rfl

/-- The digits stand for all bits. -/
theorem ofDigits_digits (id : Uuid) : ofDigits id.digits = id := by
  have hbound : id.bits.toNat < Nat.pow 16 32 := id.bits.isLt
  unfold ofDigits digits
  rw [Text.ofHex_toHex, Nat.mod_eq_of_lt hbound]
  simp

/-! ## Groups -/

theorem toList_hyphenated (id : Uuid) :
    id.hyphenated.toList = List.intercalate ['-'] (chunks groupLengths id.digitChars) :=
  String.toList_ofList

/-- The groups are found again between the hyphens. -/
theorem splitOn_hyphenated (id : Uuid) :
    id.hyphenated.toList.splitOn '-' = chunks groupLengths id.digitChars := by
  rw [toList_hyphenated]
  refine List.splitOn_intercalate '-' ?_ (by simp [groupLengths, chunks])
  intro piece hpiece hmem
  have hdigit := isSome_of_mem_digitChars (mem_of_mem_chunks hpiece hmem)
  exact absurd hdigit (by decide)

theorem mapM_hexValue?_digitChars (id : Uuid) :
    id.digitChars.mapM Text.hexValue? = some id.digits :=
  mapM_hexValue?_hexDigit fun _ => lt_of_mem_toHex

theorem ofGroups?_hyphenated (id : Uuid) : ofGroups? id.hyphenated.toList = some id := by
  have hlengths : (chunks groupLengths id.digitChars).map List.length = groupLengths := by
    refine map_length_chunks groupLengths id.digitChars ?_
    rw [length_digitChars]
    decide
  have hflatten : (chunks groupLengths id.digitChars).flatten = id.digitChars := by
    refine flatten_chunks groupLengths id.digitChars ?_
    rw [length_digitChars]
    decide
  unfold ofGroups?
  simp only [splitOn_hyphenated, hlengths, hflatten, mapM_hexValue?_digitChars, if_true]
  rw [Option.map_some, ofDigits_digits]

/-- Braces and the scheme begin with characters that are no digits. -/
theorem unwrap_hexDigit {d : Nat} (hd : d < 16) (cs : List Char) :
    unwrap (Text.hexDigit d :: cs) = none := by
  have hbrace : ∀ d, d < 16 → Text.hexDigit d ≠ '{' := by decide
  have hscheme : ∀ d, d < 16 → (Text.hexDigit d).toLower ≠ 'u' := by decide
  unfold unwrap
  split
  · rename_i heq
    exact absurd (List.cons.inj heq).1 (hbrace d hd)
  · refine if_neg ?_
    intro heq
    exact hscheme d hd (List.cons.inj heq).1

theorem exists_digits_eq_cons (id : Uuid) : ∃ d ds, d < 16 ∧ id.digits = d :: ds := by
  have hlength : id.digits.length = 32 := Text.length_toHex 32 _
  cases hdigits : id.digits with
  | nil =>
    rw [hdigits] at hlength
    cases hlength
  | cons d ds => exact ⟨d, ds, lt_of_mem_toHex (hdigits ▸ List.mem_cons_self), rfl⟩

theorem exists_hyphenated_eq_cons (id : Uuid) :
    ∃ d cs, d < 16 ∧ id.hyphenated.toList = Text.hexDigit d :: cs := by
  obtain ⟨d, ds, hd, hdigits⟩ := exists_digits_eq_cons id
  refine ⟨d, id.hyphenated.toList.tail, hd, ?_⟩
  rw [toList_hyphenated, digitChars, hdigits]
  rfl

/-- The hyphens make the text longer than 32 digits. -/
theorem length_hyphenated (id : Uuid) : id.hyphenated.toList.length = 36 := by
  have hlength := length_digitChars id
  rw [toList_hyphenated]
  simp [groupLengths, chunks, List.intercalate, hlength]

/-- An identifier that is written is read as the same identifier. -/
theorem parse_hyphenated (id : Uuid) : parse id.hyphenated = .ok id := by
  have hunwrap : unwrap id.hyphenated.toList = none := by
    obtain ⟨d, cs, hd, hcs⟩ := exists_hyphenated_eq_cons id
    rw [hcs]
    exact unwrap_hexDigit hd cs
  have hsimple : ofSimple? id.hyphenated.toList = none := by
    refine if_neg ?_
    rw [length_hyphenated]
    decide
  have hparse : parse? id.hyphenated = some id := by
    unfold parse?
    simp only [hunwrap, hsimple, ofGroups?_hyphenated, Option.none_or]
  unfold parse
  rw [hparse]

/-! ## Digits alone -/

theorem toList_simple (id : Uuid) : id.simple.toList = id.digitChars := String.toList_ofList

/-- The digits without hyphens are read as the same identifier, too. -/
theorem parse_simple (id : Uuid) : parse id.simple = .ok id := by
  have hunwrap : unwrap id.digitChars = none := by
    obtain ⟨d, ds, hd, hdigits⟩ := exists_digits_eq_cons id
    rw [digitChars, hdigits]
    exact unwrap_hexDigit hd _
  have hsimple : ofSimple? id.digitChars = some id := by
    unfold ofSimple?
    rw [if_pos (length_digitChars id), mapM_hexValue?_digitChars, Option.map_some,
      ofDigits_digits]
  have hparse : parse? id.simple = some id := by
    unfold parse?
    simp only [toList_simple, hunwrap, hsimple, Option.some_or]
  unfold parse
  rw [hparse]

/-! ## Reading -/

theorem read_of_parse {s : String} {id : Uuid} (h : parse s = .ok id) : read s = .ok id := by
  unfold read
  rw [h]
  rfl

theorem read_hyphenated (id : Uuid) : read id.hyphenated = .ok id :=
  read_of_parse (parse_hyphenated id)

theorem read_simple (id : Uuid) : read id.simple = .ok id := read_of_parse (parse_simple id)

/-! ## Other characters -/

section

variable {c : Char} (h : Text.hexValue? c = none)
include h

theorem notMem_digitChars (id : Uuid) : c ∉ id.digitChars := by
  intro hmem
  have hdigit := isSome_of_mem_digitChars hmem
  rw [h] at hdigit
  cases hdigit

theorem notMem_simple (id : Uuid) : c ∉ id.simple.toList := by
  rw [toList_simple]
  exact notMem_digitChars h id

theorem notMem_hyphenated (hhyphen : c ≠ '-') (id : Uuid) : c ∉ id.hyphenated.toList := by
  intro hmem
  rw [toList_hyphenated] at hmem
  rcases mem_of_mem_intercalate hmem with hsep | ⟨piece, hpiece, hdigit⟩
  · exact hhyphen (List.mem_singleton.mp hsep)
  · exact notMem_digitChars h id (mem_of_mem_chunks hpiece hdigit)

end

end SignedDocs.Uuid
