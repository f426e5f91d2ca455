import SignedDocs.Text.Blank

/-!
Texts cut at a mark, and the parts between marks: the first mark opens a part and the next one
closes it.

* `join_cut`, `cut_join`: cutting and joining undo each other, if no piece has the mark in it.
* `turns`: pairs laid out one after the other. A text of marked parts, each behind some other text,
  is cut in this way (`cut_marked`).
* `marked_append`: what stands before a part does not matter if it has no marks; `marked_piece`,
  `marked_first` and `marked_last` say so of a text taken apart from its beginning.
* `marked_join`: marked parts are found again in a list of items, in their order, whatever the
  texts around them are and wherever the list stands; an empty list has none.
-/

namespace SignedDocs.Text

variable {m : Char}

/-! ## Joining -/

theorem join_cons_cons (sep part next : String) (parts : List String) :
    join sep (part :: next :: parts) = part ++ sep ++ join sep (next :: parts) :=
  String.intercalate_cons_cons

theorem join_cons (sep part : String) (parts : List String) :
    join sep (part :: parts) = part ++ String.join (parts.map fun p => sep ++ p) := by
  induction parts generalizing part with
  | nil => simp [join]
  | cons next parts ih =>
    rw [join_cons_cons, ih next, List.map_cons, String.join_cons, String.append_assoc,
      String.append_assoc]

/-! ## Cutting -/

/-- The pieces of a text between the occurrences of a character. -/
def cut (m : Char) (s : String) : List String := (s.toList.splitOn m).map String.ofList

theorem cut_ne_nil (m : Char) (s : String) : cut m s ≠ [] := by
  simp [cut]

theorem cut_of_notMem {s : String} (h : m ∉ s.toList) : cut m s = [s] := by
  rw [cut, List.splitOn_eq_singleton h, List.map_singleton, String.ofList_toList]

theorem cut_append (m : Char) (s t : String) :
    cut m (s ++ String.singleton m ++ t) = cut m s ++ cut m t := by
  have hlist : (s ++ String.singleton m ++ t).toList = s.toList ++ m :: t.toList := by
    simp
  rw [cut, hlist, List.splitOn_append_cons_self, List.map_append]
  rfl

theorem join_cut (m : Char) (s : String) : join (String.singleton m) (cut m s) = s := by
  have hmap : (cut m s).map String.toList = s.toList.splitOn m := by
    simp [cut, Function.comp_def]
  rw [← String.toList_inj, join, String.toList_intercalate, hmap, String.toList_singleton]
  exact List.intercalate_splitOn m

theorem cut_join {parts : List String} (hne : parts ≠ []) (h : ∀ p ∈ parts, m ∉ p.toList) :
    cut m (join (String.singleton m) parts) = parts := by
  have hlists : ∀ cs ∈ parts.map String.toList, m ∉ cs := List.forall_mem_map.mpr h
  rw [cut, join, String.toList_intercalate, String.toList_singleton,
    List.splitOn_intercalate m hlists (by simpa using hne), List.map_map]
  simp [Function.comp_def]

theorem notMem_of_mem_splitOn {cs piece : List Char} (h : piece ∈ cs.splitOn m) : m ∉ piece := by
  induction cs generalizing piece with
  | nil =>
    rw [List.splitOn_nil, List.mem_singleton] at h
    subst h
    exact List.not_mem_nil
  | cons c cs ih =>
    -- the character begins a new piece, or goes to the first one of the rest
    rw [List.splitOn_cons_eq_if_modifyHead] at h
    obtain ⟨first, rest, hpieces⟩ := List.exists_cons_of_ne_nil (List.splitOn_ne_nil m cs)
    rw [hpieces] at h ih
    split at h
    case isTrue hc =>
      rcases List.mem_cons.mp h with rfl | h
      · exact List.not_mem_nil
      · exact ih h
    case isFalse hc =>
      rw [List.modifyHead_cons] at h
      rcases List.mem_cons.mp h with rfl | h
      · have hm : m ≠ c := fun hmc => hc (beq_iff_eq.mpr hmc.symm)
        exact List.not_mem_cons_of_ne_of_not_mem hm (ih List.mem_cons_self)
      · exact ih (List.mem_cons_of_mem _ h)

theorem notMem_of_mem_cut {s piece : String} (h : piece ∈ cut m s) : m ∉ piece.toList := by
  obtain ⟨cs, hcs, rfl⟩ := List.mem_map.mp h
  rw [String.toList_ofList]
  exact notMem_of_mem_splitOn hcs

/-! ## Turns -/

section

variable {α : Type} {pairs : List (α × α)} {last : α}

/-- The first and the second one of each pair, and one more at the end. -/
def turns (pairs : List (α × α)) (last : α) : List α :=
  pairs.flatMap (fun p => [p.1, p.2]) ++ [last]

theorem turns_cons (p : α × α) : turns (p :: pairs) last = p.1 :: p.2 :: turns pairs last := rfl

theorem length_turns : (turns pairs last).length = 2 * pairs.length + 1 := by
  induction pairs with
  | nil => rfl
  | cons p pairs ih =>
    rw [turns_cons, List.length_cons, List.length_cons, ih, List.length_cons]
    omega

theorem getElem?_turns_even {i : Nat} (h : i < pairs.length) :
    (turns pairs last)[2 * i]? = pairs[i]?.map Prod.fst := by
  induction pairs generalizing i with
  | nil => cases h
  | cons p pairs ih =>
    cases i with
    | zero => rfl
    | succ i =>
      rw [turns_cons, Nat.mul_add]
      exact ih (Nat.lt_of_succ_lt_succ h)

theorem getElem?_turns_odd (i : Nat) :
    (turns pairs last)[2 * i + 1]? = pairs[i]?.map Prod.snd := by
  induction pairs generalizing i with
  | nil => rfl
  | cons p pairs ih =>
    cases i with
    | zero => rfl
    | succ i =>
      rw [turns_cons, Nat.mul_add]
      exact ih i

theorem getLast?_turns : (turns pairs last).getLast? = some last := List.getLast?_concat

end

/-! ## Parts -/

/-- Every second one, beginning with the second. -/
def everySecond {α : Type} : List α → List α
  | _ :: a :: rest => a :: everySecond rest
  | _ => []

/-- The parts between marks. -/
def marked (mark : Char) (s : String) : List String :=
  (everySecond (s.toList.splitOn mark)).map String.ofList

/-- The part with a mark on both sides. -/
def mark (m : Char) (part : String) : String := String.singleton m ++ part ++ String.singleton m

theorem everySecond_map {α β : Type} (f : α → β) (xs : List α) :
    everySecond (xs.map f) = (everySecond xs).map f := by
  match xs with
  | [] => rfl
  | [_] => rfl
  | _ :: y :: rest => exact congrArg (f y :: ·) (everySecond_map f rest)

/-- The parts between marks are every second one of the pieces. -/
theorem marked_eq (m : Char) (s : String) : marked m s = everySecond (cut m s) :=
  (everySecond_map String.ofList _).symm

theorem marked_of_notMem {s : String} (h : m ∉ s.toList) : marked m s = [] := by
  rw [marked_eq, cut_of_notMem h]
  rfl

theorem cut_mark {before part : String} (hbefore : m ∉ before.toList) (hpart : m ∉ part.toList)
    (rest : String) : cut m (before ++ mark m part ++ rest) = before :: part :: cut m rest := by
  have htext : before ++ mark m part ++ rest =
      before ++ String.singleton m ++ (part ++ String.singleton m ++ rest) := by
    simp only [mark, String.append_assoc]
  rw [htext, cut_append, cut_append, cut_of_notMem hbefore, cut_of_notMem hpart]
  rfl

theorem marked_append {before part : String} (hbefore : m ∉ before.toList)
    (hpart : m ∉ part.toList) (rest : String) :
    marked m (before ++ mark m part ++ rest) = part :: marked m rest := by
  rw [marked_eq, marked_eq, cut_mark hbefore hpart]
  rfl

theorem marked_piece {before part : String} (hbefore : m ∉ before.toList)
    (hpart : m ∉ part.toList) (rest : String) :
    marked m (before ++ (mark m part ++ rest)) = part :: marked m rest := by
  rw [← String.append_assoc, marked_append hbefore hpart]

theorem marked_first {part : String} (hpart : m ∉ part.toList) (rest : String) :
    marked m (mark m part ++ rest) = part :: marked m rest := by
  have hnone : m ∉ "".toList := List.not_mem_nil
  rw [← marked_piece hnone hpart, String.empty_append]

theorem marked_last {before part : String} (hbefore : m ∉ before.toList)
    (hpart : m ∉ part.toList) : marked m (before ++ mark m part) = [part] := by
  have hnone : m ∉ "".toList := List.not_mem_nil
  rw [← String.append_empty (s := before ++ mark m part), marked_append hbefore hpart,
    marked_of_notMem hnone]

/-- Parts with marks around them, each behind some text, are cut into these texts and parts; what
stands behind the last one is the last piece. -/
theorem cut_marked {pairs : List (String × String)}
    (h : ∀ p ∈ pairs, m ∉ p.1.toList ∧ m ∉ p.2.toList) {after : String}
    (hafter : m ∉ after.toList) :
    cut m (String.join (pairs.map fun p => p.1 ++ mark m p.2) ++ after) = turns pairs after := by
  induction pairs with
  | nil =>
    rw [List.map_nil, String.join_nil, String.empty_append]
    exact cut_of_notMem hafter
  | cons p pairs ih =>
    rw [List.forall_mem_cons] at h
    rw [List.map_cons, String.join_cons, String.append_assoc, cut_mark h.1.1 h.1.2, ih h.2]
    rfl

/-! ## Lists of items -/

section

variable {α : Type} {part : α → String} {opening closing sep : String}

/-- The induction is on the items, for any text before them: once the first part is found, the
end of its item and the separator stand before the others. -/
theorem marked_join (hopening : m ∉ opening.toList) (hclosing : m ∉ closing.toList)
    (hsep : m ∉ sep.toList) {items : List α} (hpart : ∀ a ∈ items, m ∉ (part a).toList)
    {before after : String} (hbefore : m ∉ before.toList) (hafter : m ∉ after.toList) :
    marked m (before ++ join sep (items.map fun a => opening ++ mark m (part a) ++ closing) ++
      after) = items.map part := by
  induction items generalizing before with
  | nil =>
    refine marked_of_notMem ?_
    simp [join, hbefore, hafter]
  | cons a items ih =>
    rw [List.forall_mem_cons] at hpart
    have hstart : m ∉ (before ++ opening).toList := by
      simp [hbefore, hopening]
    cases items with
    | nil =>
      have htext : before ++ join sep [opening ++ mark m (part a) ++ closing] ++ after =
          before ++ opening ++ mark m (part a) ++ (closing ++ after) := by
        simp [join, String.append_assoc]
      have hend : m ∉ (closing ++ after).toList := by
        simp [hclosing, hafter]
      rw [List.map_singleton, htext, marked_append hstart hpart.1, marked_of_notMem hend]
      rfl
    | cons b items =>
      have hnext : m ∉ (closing ++ sep).toList := by
        simp [hclosing, hsep]
      have htext : before ++ join sep ((a :: b :: items).map
            fun a => opening ++ mark m (part a) ++ closing) ++ after =
          before ++ opening ++ mark m (part a) ++ (closing ++ sep ++ join sep ((b :: items).map
            fun a => opening ++ mark m (part a) ++ closing) ++ after) := by
        simp only [List.map_cons, join_cons_cons, String.append_assoc]
      rw [htext, marked_append hstart hpart.1, ih hpart.2 hnext]
      rfl

end

end SignedDocs.Text
