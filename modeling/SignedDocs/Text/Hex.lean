/-!
Hexadecimal digits: written in lower case, read in either.
-/

namespace SignedDocs.Text

/-- The lower case digit of a number below 16. -/
def hexDigit (n : Nat) : Char := Nat.digitChar n

/-- The number a digit stands for. -/
def hexValue? (c : Char) : Option Nat :=
  if c.isDigit then some (c.toNat - '0'.toNat)
  else if 'a' ≤ c ∧ c ≤ 'f' then some (c.toNat - 'a'.toNat + 10)
  else if 'A' ≤ c ∧ c ≤ 'F' then some (c.toNat - 'A'.toNat + 10)
  else none

/-- The number written by digits, the most significant first. -/
def ofHex (digits : List Nat) : Nat := digits.foldl (fun n d => 16 * n + d) 0

/-- The last `count` digits of a number, the most significant first. -/
def toHex : Nat → Nat → List Nat
  | 0, _ => []
  | count + 1, n => toHex count (n / 16) ++ [n % 16]

theorem hexValue?_hexDigit : ∀ n, n < 16 → hexValue? (hexDigit n) = some n := by
  decide

theorem ofHex_toHex (count n : Nat) : ofHex (toHex count n) = n % Nat.pow 16 count := by
  induction count generalizing n with
  | zero => simp [ofHex, toHex, Nat.mod_one]
  | succ count ih =>
    have hs : ofHex (toHex (count + 1) n) = 16 * ofHex (toHex count (n / 16)) + n % 16 := by
      simp [ofHex, toHex]
    have hp : Nat.pow 16 (count + 1) = 16 * Nat.pow 16 count := Nat.mul_comm _ 16
    rw [hs, ih, hp, Nat.mod_mul]
    omega

theorem length_toHex (count n : Nat) : (toHex count n).length = count := by
  induction count generalizing n with
  | zero => rfl
  | succ count ih => simp [toHex, ih]

end SignedDocs.Text
