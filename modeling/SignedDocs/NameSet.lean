/-!
Sets of names, written in the order of their characters' code points.
-/

namespace SignedDocs

/-- Names in strictly ascending order. -/
structure NameSet where
  toList : List String
  ascending : toList.Pairwise (· < ·)

namespace NameSet

@[ext] theorem ext {s t : NameSet} (h : s.toList = t.toList) : s = t := by
  cases s; cases t; cases h; rfl

def empty : NameSet := ⟨[], List.Pairwise.nil⟩

instance : Inhabited NameSet := ⟨empty⟩

instance : Membership String NameSet := ⟨fun s a => a ∈ s.toList⟩

/-! ## Insertion -/

/-- An ascending list with `a` at its place. -/
def place (a : String) : List String → List String
  | [] => [a]
  | b :: bs => if a < b then a :: b :: bs else if a = b then b :: bs else b :: place a bs

theorem mem_place {a c : String} {bs : List String} : c ∈ place a bs ↔ c = a ∨ c ∈ bs := by
  induction bs with
  | nil => simp [place]
  | cons b bs ih =>
    unfold place
    by_cases hlt : a < b
    · simp [hlt]
    · by_cases he : a = b
      · simp [he]
      · simp [hlt, he, ih, or_left_comm]

theorem lt_of_not_lt {a b : String} (h : ¬ a < b) (hne : a ≠ b) : b < a := by
  rcases String.le_total a b with hab | hba
  · exact absurd (String.le_antisymm hab (String.not_lt.mp h)) hne
  · by_cases hlt : b < a
    · exact hlt
    · exact absurd (String.le_antisymm (String.not_lt.mp hlt) hba) hne

theorem ascending_place {a : String} {bs : List String} (h : bs.Pairwise (· < ·)) :
    (place a bs).Pairwise (· < ·) := by
  induction bs with
  | nil => simp [place]
  | cons b bs ih =>
    have hb := List.pairwise_cons.mp h
    unfold place
    by_cases hlt : a < b
    · rw [if_pos hlt, List.pairwise_cons]
      refine ⟨?_, h⟩
      intro c hc
      rcases List.mem_cons.mp hc with rfl | hc
      · exact hlt
      · exact String.lt_trans hlt (hb.1 c hc)
    · rw [if_neg hlt]
      by_cases he : a = b
      · rw [if_pos he]
        exact h
      · rw [if_neg he, List.pairwise_cons]
        refine ⟨?_, ih hb.2⟩
        intro c hc
        rcases mem_place.mp hc with rfl | hc
        · exact lt_of_not_lt hlt he
        · exact hb.1 c hc

def insert (s : NameSet) (a : String) : NameSet :=
  ⟨place a s.toList, ascending_place s.ascending⟩

/-- The names of a list, each once. -/
def ofList (names : List String) : NameSet := names.foldl insert empty

def contains (s : NameSet) (a : String) : Bool := s.toList.contains a

def size (s : NameSet) : Nat := s.toList.length

def isEmpty (s : NameSet) : Bool := s.toList.isEmpty

theorem mem_insert {s : NameSet} {a c : String} : c ∈ s.insert a ↔ c = a ∨ c ∈ s := mem_place

theorem not_mem_empty (a : String) : ¬ a ∈ empty := List.not_mem_nil

theorem mem_ofList {names : List String} {a : String} : a ∈ ofList names ↔ a ∈ names := by
  suffices ∀ s : NameSet, a ∈ names.foldl insert s ↔ a ∈ s ∨ a ∈ names by
    simpa [ofList, not_mem_empty] using this empty
  induction names with
  | nil => simp
  | cons b names ih =>
    intro s
    rw [List.foldl_cons, ih, mem_insert, List.mem_cons]
    constructor
    · rintro ((h | h) | h)
      · exact Or.inr (Or.inl h)
      · exact Or.inl h
      · exact Or.inr (Or.inr h)
    · rintro (h | h | h)
      · exact Or.inl (Or.inr h)
      · exact Or.inl (Or.inl h)
      · exact Or.inr h

end NameSet

end SignedDocs
