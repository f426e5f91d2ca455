import Mathlib.Data.List.Induction
import Mathlib.Data.List.Nodup
import Mathlib.Logic.Relation

/-!
Walks in depth along lists of successors.

* `Preorder`: the order of a walk, said without the walk: each entry is the first
  successor, not met before, of the last entry before it that has such a successor.
* `DepthFirst`: the walk itself, with what it met before it began.
* `exists_depthFirst`: the walk ends if only finitely many entries have successors.
* `DepthFirst.preorder`: a walk from one root gives the preorder of that root; there is
  only one (`Preorder.unique`).
* `Preorder.nodup`, `Preorder.mem_iff`, `Preorder.exists_before`: no entry comes twice, the entries
  are what can be reached, and every entry but the root comes after one that leads to it.
-/

namespace SignedDocs

universe u

variable {α : Type u} [DecidableEq α]

/-! ## Preorders -/

section Definitions

variable (next : α → List α)

/-- The first element that is not met. -/
def firstUnmet (met : List α) (xs : List α) : Option α := xs.find? fun x => x ∉ met

/-- The first unmet successor of the last entry that has one. -/
def upcoming (met entries : List α) : Option α :=
  entries.reverse.findSome? fun p => firstUnmet met (next p)

/-- The root comes first; after each entry comes what is upcoming, until nothing is. -/
structure Preorder (root : α) (order : List α) : Prop where
  head : order.head? = some root
  step : ∀ met rest, order = met ++ rest → met ≠ [] → rest.head? = upcoming next met met

/-- A walk that takes up a list of entries, one after the other: an entry that was met is
skipped; another one is followed at once by all that its successors lead to. The last
list holds what is met for the first time. -/
inductive DepthFirst : List α → List α → List α → Prop where
  | done {seen : List α} : DepthFirst seen [] []
  | skip {seen todo new : List α} {x : α} (met : x ∈ seen) (rest : DepthFirst seen todo new) :
      DepthFirst seen (x :: todo) new
  | visit {seen todo below new : List α} {x : α} (unmet : x ∉ seen)
      (down : DepthFirst (seen ++ [x]) (next x) below)
      (rest : DepthFirst (seen ++ x :: below) todo new) :
      DepthFirst seen (x :: todo) (x :: below ++ new)

/-- One entry leads to another in some steps. -/
def Leads : α → α → Prop := Relation.ReflTransGen fun p x => x ∈ next p

end Definitions

variable {next : α → List α}

/-! ## What is upcoming -/

theorem firstUnmet_eq_none_iff {met xs : List α} :
    firstUnmet met xs = none ↔ ∀ x ∈ xs, x ∈ met := by
  unfold firstUnmet
  simp

theorem firstUnmet_cons_of_mem {met xs : List α} {x : α} (h : x ∈ met) :
    firstUnmet met (x :: xs) = firstUnmet met xs :=
  List.find?_cons_of_neg (by simpa using h)

theorem firstUnmet_cons_of_not_mem {met xs : List α} {x : α} (h : x ∉ met) :
    firstUnmet met (x :: xs) = some x :=
  List.find?_cons_of_pos (by simpa using h)

theorem upcoming_append (met xs ys : List α) :
    upcoming next met (xs ++ ys) = (upcoming next met ys).or (upcoming next met xs) := by
  unfold upcoming
  rw [List.reverse_append, List.findSome?_append]

theorem upcoming_cons (met : List α) (x : α) (xs : List α) :
    upcoming next met (x :: xs) = (upcoming next met xs).or (firstUnmet met (next x)) := by
  have hone : upcoming next met [x] = firstUnmet met (next x) := by
    unfold upcoming
    cases h : firstUnmet met (next x) <;> simp [h]
  rw [← List.singleton_append, upcoming_append, hone]

theorem upcoming_eq_none_iff {met entries : List α} :
    upcoming next met entries = none ↔ ∀ p ∈ entries, ∀ x ∈ next p, x ∈ met := by
  unfold upcoming
  simp only [List.findSome?_eq_none_iff, List.mem_reverse, firstUnmet_eq_none_iff]

theorem of_upcoming_eq_some {met entries : List α} {x : α}
    (h : upcoming next met entries = some x) : x ∉ met ∧ ∃ p ∈ entries, x ∈ next p := by
  obtain ⟨p, hp, hx⟩ := List.exists_of_findSome?_eq_some h
  have hunmet := List.find?_some hx
  exact ⟨by simpa using hunmet, p, List.mem_reverse.mp hp, List.mem_of_find?_eq_some hx⟩

theorem upcoming_congr {next' : α → List α} {met entries : List α}
    (h : ∀ p ∈ entries, next p = next' p) :
    upcoming next met entries = upcoming next' met entries := by
  induction entries with
  | nil => rfl
  | cons p ps ih =>
    rw [List.forall_mem_cons] at h
    rw [upcoming_cons, upcoming_cons, ih h.2, h.1]

/-! ## What a preorder holds -/

namespace Preorder

variable {root : α} {order : List α}

/-- Successors of what is not met play no part. -/
theorem congr {next' : α → List α} (h : Preorder next root order)
    (hnext : ∀ p ∈ order, next p = next' p) : Preorder next' root order := by
  refine ⟨h.head, ?_⟩
  intro met rest ho hne
  rw [h.step met rest ho hne]
  refine upcoming_congr fun p hp => hnext p ?_
  rw [ho]
  exact List.mem_append_left rest hp

theorem root_mem (h : Preorder next root order) : root ∈ order := List.mem_of_head? h.head

/-- An entry other than the first was upcoming before it. -/
theorem upcoming_eq_some (h : Preorder next root order) {before after : List α} {x : α}
    (ho : order = before ++ x :: after) (hb : before ≠ []) :
    upcoming next before before = some x := by
  rw [← h.step before (x :: after) ho hb]
  rfl

theorem exists_before (h : Preorder next root order) {before after : List α} {x : α}
    (ho : order = before ++ x :: after) (hb : before ≠ []) : ∃ p ∈ before, x ∈ next p :=
  (of_upcoming_eq_some (h.upcoming_eq_some ho hb)).2

omit [DecidableEq α] in
/-- Induction along an order, from what comes before an entry to the entry. -/
theorem induction_prefix {P : List α → Prop} (nil : P [])
    (step : ∀ before x after, order = before ++ x :: after → P before → P (before ++ [x])) :
    P order := by
  suffices ∀ before after, order = before ++ after → P before from
    this order [] (List.append_nil order).symm
  intro before
  induction before using List.reverseRecOn with
  | nil => exact fun _ _ => nil
  | append_singleton before x ih =>
    intro after ho
    rw [List.append_assoc, List.singleton_append] at ho
    exact step before x after ho (ih _ ho)

theorem nodup (h : Preorder next root order) : order.Nodup := by
  refine induction_prefix List.nodup_nil ?_
  intro before x after ho ih
  have hx : x ∉ before := by
    by_cases hb : before = []
    · simp [hb]
    · exact (of_upcoming_eq_some (h.upcoming_eq_some ho hb)).1
  rw [← List.concat_eq_append]
  exact ih.concat hx

/-- Nothing is upcoming at the end. -/
theorem closed (h : Preorder next root order) {p x : α} (hp : p ∈ order) (hx : x ∈ next p) :
    x ∈ order := by
  have hend := h.step order [] (List.append_nil order).symm (List.ne_nil_of_mem hp)
  exact upcoming_eq_none_iff.mp hend.symm p hp x hx

/-- The entries are those that the root leads to. -/
theorem mem_iff (h : Preorder next root order) {x : α} : x ∈ order ↔ Leads next root x := by
  constructor
  · refine induction_prefix (P := fun before => ∀ y ∈ before, Leads next root y) ?_ ?_ x
    · exact fun y hy => absurd hy List.not_mem_nil
    · intro before z after ho ih y hy
      rcases List.mem_append.mp hy with hyb | hyz
      · exact ih y hyb
      · rw [List.mem_singleton.mp hyz]
        by_cases hb : before = []
        · have hroot := h.head
          rw [ho, hb] at hroot
          rw [← Option.some.inj hroot]
          exact .refl
        · obtain ⟨p, hp, hz⟩ := h.exists_before ho hb
          exact (ih p hp).tail hz
  · intro hl
    induction hl with
    | refl => exact h.root_mem
    | tail _ hstep ih => exact h.closed ih hstep

/-- A root has one preorder. -/
theorem unique {order' : List α} (h : Preorder next root order) (h' : Preorder next root order') :
    order = order' := by
  have hprefix : ∀ n, order.take n = order'.take n := by
    intro n
    induction n with
    | zero => simp
    | succ n ih =>
      rw [List.take_add_one, List.take_add_one, ih]
      congr 2
      rw [← List.head?_drop, ← List.head?_drop]
      cases n with
      | zero => exact h.head.trans h'.head.symm
      | succ n =>
        have hne : ∀ {xs : List α}, xs.head? = some root → xs.take (n + 1) ≠ [] := by
          intro xs hxs he
          cases xs with
          | nil => cases hxs
          | cons y ys => cases he
        rw [h.step _ _ (List.take_append_drop (n + 1) order).symm (hne h.head),
          h'.step _ _ (List.take_append_drop (n + 1) order').symm (hne h'.head), ih]
  have hlong := hprefix (max order.length order'.length)
  rwa [List.take_of_length_le (Nat.le_max_left _ _),
    List.take_of_length_le (Nat.le_max_right _ _)] at hlong

end Preorder

/-! ## The end of a walk -/

/-- How many of some entries are not met. -/
def unmetCount (xs met : List α) : Nat := (xs.filter fun x => x ∉ met).length

theorem unmetCount_le_length (xs met : List α) : unmetCount xs met ≤ xs.length :=
  List.length_filter_le _ xs

theorem filter_unmet_append (xs met new : List α) :
    (xs.filter fun x => x ∉ met ++ new) =
      (xs.filter fun x => x ∉ met).filter fun x => x ∉ new := by
  rw [List.filter_filter]
  refine List.filter_congr fun x _ => ?_
  simp [Bool.and_comm]

theorem unmetCount_append_le (xs met new : List α) :
    unmetCount xs (met ++ new) ≤ unmetCount xs met := by
  unfold unmetCount
  rw [filter_unmet_append]
  exact List.length_filter_le _ _

/-- Meeting one of the entries leaves fewer of them. -/
theorem unmetCount_append_lt {xs met new : List α} {x : α} (hx : x ∈ xs) (hm : x ∉ met)
    (hn : x ∈ new) : unmetCount xs (met ++ new) < unmetCount xs met := by
  unfold unmetCount
  rw [filter_unmet_append, List.length_filter_lt_length_iff_exists]
  exact ⟨x, List.mem_filter.mpr ⟨hx, by simpa using hm⟩, by simpa using hn⟩

/-- A walk ends if only some listed entries have successors: each of them is entered once. -/
theorem exists_depthFirst {xs : List α} (hxs : ∀ x, next x ≠ [] → x ∈ xs) (seen todo : List α) :
    ∃ new, DepthFirst next seen todo new := by
  suffices ∀ bound seen todo, unmetCount xs seen < bound → ∃ new, DepthFirst next seen todo new from
    this _ seen todo (Nat.lt_succ_self _)
  intro bound
  induction bound with
  | zero => exact fun _ _ h => absurd h (Nat.not_lt_zero _)
  | succ bound ih =>
    intro seen todo hbound
    induction todo generalizing seen with
    | nil => exact ⟨[], .done⟩
    | cons x todo ihTodo =>
      by_cases hx : x ∈ seen
      · obtain ⟨new, hnew⟩ := ihTodo seen hbound
        exact ⟨new, .skip hx hnew⟩
      · have hdown : ∃ below, DepthFirst next (seen ++ [x]) (next x) below := by
          by_cases hleaf : next x = []
          · rw [hleaf]
            exact ⟨[], .done⟩
          · have hlt := unmetCount_append_lt (hxs x hleaf) hx (List.mem_singleton_self x)
            exact ih _ _ (Nat.lt_of_lt_of_le hlt (Nat.le_of_lt_succ hbound))
        obtain ⟨below, hbelow⟩ := hdown
        have hle := unmetCount_append_le xs seen (x :: below)
        obtain ⟨new, hnew⟩ := ihTodo _ (Nat.lt_of_le_of_lt hle hbound)
        exact ⟨_, .visit hx hbelow hnew⟩

/-! ## Walks give preorders -/

theorem firstUnmet_eq_none_of_append {met xs : List α} (h : firstUnmet met xs = none)
    (new : List α) : firstUnmet (met ++ new) xs = none :=
  firstUnmet_eq_none_iff.mpr fun x hx => List.mem_append_left _ (firstUnmet_eq_none_iff.mp h x hx)

theorem upcoming_eq_none_of_append {met entries : List α} (h : upcoming next met entries = none)
    (new : List α) : upcoming next (met ++ new) entries = none :=
  upcoming_eq_none_iff.mpr fun p hp x hx =>
    List.mem_append_left _ (upcoming_eq_none_iff.mp h p hp x hx)

namespace DepthFirst

/-- At every point of a walk the next entry is upcoming after what the walk met so far; if
nothing is, it is the first unmet entry that is still to be taken up. -/
theorem head?_eq {seen todo new : List α} (h : DepthFirst next seen todo new) {met rest : List α}
    (hnew : new = met ++ rest) :
    rest.head? = (upcoming next (seen ++ met) met).or (firstUnmet (seen ++ met) todo) := by
  induction h generalizing met rest with
  | done =>
    obtain ⟨rfl, rfl⟩ := List.append_eq_nil_iff.mp hnew.symm
    rfl
  | skip hx _ ih =>
    rw [firstUnmet_cons_of_mem (List.mem_append_left _ hx)]
    exact ih hnew
  | @visit seen todo below new x hx hdown hrest ihDown ihRest =>
    cases met with
    | nil =>
      rw [← List.nil_append rest, ← hnew, List.append_nil, firstUnmet_cons_of_not_mem hx]
      rfl
    | cons y met =>
      rw [List.cons_append, List.cons_append, List.cons.injEq] at hnew
      obtain ⟨rfl, hsplit⟩ := hnew
      have hseen : ∀ zs, seen ++ [x] ++ zs = seen ++ x :: zs := fun zs => by simp
      rw [upcoming_cons, firstUnmet_cons_of_mem (by simp)]
      -- once all below `x` is met, nothing is upcoming there
      have finished : ∀ later, met = below ++ later → new = later ++ rest →
          rest.head? = ((upcoming next (seen ++ x :: met) met).or
            (firstUnmet (seen ++ x :: met) (next x))).or (firstUnmet (seen ++ x :: met) todo) := by
        rintro later rfl hlater
        have hend := ihDown (List.append_nil below).symm
        rw [hseen, List.head?_nil, eq_comm, Option.or_eq_none_iff] at hend
        have hbelow := upcoming_eq_none_of_append hend.1 later
        have hleaf := firstUnmet_eq_none_of_append hend.2 later
        have hmet : seen ++ x :: (below ++ later) = seen ++ x :: below ++ later := by simp
        rw [hmet, upcoming_append, hbelow, hleaf, Option.or_none, Option.or_none]
        exact ihRest hlater
      rcases List.append_eq_append_iff.mp hsplit with ⟨later, hmet, hlater⟩ | ⟨deeper, hbelow, hrest⟩
      · exact finished later hmet hlater
      · cases deeper with
        | nil => exact finished [] (by simpa using hbelow.symm) (by simpa using hrest.symm)
        | cons z deeper =>
          have hz := ihDown hbelow
          rw [hseen] at hz
          rw [← hz, hrest]
          rfl

/-- A walk from a root meets everything in the preorder of the root. -/
theorem preorder {root : α} {order : List α} (h : DepthFirst next [] [root] order) :
    Preorder next root order := by
  have hhead : order.head? = some root := by
    rw [h.head?_eq (List.nil_append order).symm]
    rfl
  refine ⟨hhead, ?_⟩
  intro met rest ho hne
  have hroot : root ∈ met := by
    obtain ⟨x, xs, rfl⟩ := List.exists_cons_of_ne_nil hne
    rw [ho] at hhead
    rw [← Option.some.inj hhead]
    exact List.mem_cons_self
  rw [h.head?_eq ho, List.nil_append, firstUnmet_cons_of_mem hroot]
  exact Option.or_none

end DepthFirst

end SignedDocs
