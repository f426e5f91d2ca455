/-!
Ranges of integers of fixed widths.
-/

namespace SignedDocs

/-- The integer has `width + 1` bits, one of them for the sign. -/
def IsSigned (width : Nat) (n : Int) : Prop := -(Nat.pow 2 width : Nat) ≤ n ∧ n < (Nat.pow 2 width : Nat)

instance (width : Nat) (n : Int) : Decidable (IsSigned width n) :=
  inferInstanceAs (Decidable (_ ∧ _))

/-- Naturals of 32 bits. -/
abbrev Natural32 := Fin (Nat.pow 2 32)

end SignedDocs
