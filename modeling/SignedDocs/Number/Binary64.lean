/-!
Finite binary64 numbers, held exactly: a sign, a mantissa `m < 2 ^ 53` and a
power of two, with `m ≥ 2 ^ 52` unless the power is the least one.

* `ofRatio`: the number nearest to a quotient, ties to the even mantissa;
  `none` above the finite range. Every operation is the exact result, so rounded.
* `magnitude`: the exact quotient of naturals behind a number, the way back.
-/

namespace SignedDocs

structure Binary64 where
  negative : Bool
  mantissa : Nat
  exponent : Int
deriving DecidableEq, Repr, Inhabited

namespace Binary64

/-- Least exponent: that of zero and of the numbers below `2 ^ -1022`. -/
def leastExponent : Int := -1074

def zero (negative : Bool) : Binary64 := ⟨negative, 0, leastExponent⟩

def isZero (x : Binary64) : Bool := x.mantissa == 0

/-- `num / den` rounded to a natural, a half to the even neighbour. -/
def roundHalfEven (num den : Nat) : Nat :=
  let q := num / den
  let twice := 2 * (num % den)
  if twice < den then q
  else if den < twice then q + 1
  else if q % 2 = 0 then q else q + 1

/-- `n * 2 ^ e` as a numerator and a denominator. -/
def scaled (n : Nat) (e : Int) : Nat × Nat := (n * Nat.pow 2 e.toNat, Nat.pow 2 (-e).toNat)

/-- Exponent at which a quotient has 53 digits before the point, not below the least one. -/
def exponentOf (num den : Nat) : Int :=
  let e : Int := (num.log2 : Int) - (den.log2 : Int)
  -- the quotient lies above `2 ^ (e - 1)` and below `2 ^ (e + 1)`
  let top := if den * Nat.pow 2 e.toNat ≤ num * Nat.pow 2 (-e).toNat then e else e - 1
  max (top - 52) leastExponent

/-- The finite number nearest to `num / den`; `none` if there is none. -/
def ofRatio (negative : Bool) (num den : Nat) : Option Binary64 :=
  if num = 0 ∨ den = 0 then some (zero negative)
  else
    let e := exponentOf num den
    let m := roundHalfEven (num * Nat.pow 2 (-e).toNat) (den * Nat.pow 2 e.toNat)
    let (m, e) := if m = Nat.pow 2 53 then (Nat.pow 2 52, e + 1) else (m, e)
    if 971 < e then none else some ⟨negative, m, e⟩

/-- Exact absolute value as a quotient. -/
def magnitude (x : Binary64) : Nat × Nat := scaled x.mantissa x.exponent

def ofNat (n : Nat) : Option Binary64 := ofRatio false n 1

def ofInt (n : Int) : Option Binary64 := ofRatio (decide (n < 0)) n.natAbs 1

def neg (x : Binary64) : Binary64 := { x with negative := !x.negative }

def mul (x y : Binary64) : Option Binary64 :=
  let (a, b) := x.magnitude
  let (c, d) := y.magnitude
  ofRatio (x.negative != y.negative) (a * c) (b * d)

/-- Quotient by a number other than zero. -/
def div (x y : Binary64) : Option Binary64 :=
  let (a, b) := x.magnitude
  let (c, d) := y.magnitude
  ofRatio (x.negative != y.negative) (a * d) (b * c)

/-- Signed numerator over the common denominator `2 ^ 1074`. -/
def units (x : Binary64) : Int :=
  let n : Int := (x.mantissa * Nat.pow 2 (x.exponent - leastExponent).toNat : Nat)
  if x.negative then -n else n

def sub (x y : Binary64) : Option Binary64 :=
  let d := x.units - y.units
  ofRatio (decide (d < 0)) d.natAbs (Nat.pow 2 1074)

/-- Has no fraction. -/
def isIntegral (x : Binary64) : Bool :=
  let (num, den) := x.magnitude
  num % den == 0

/-- `10 ^ k`, rounded. -/
def powerOfTen (k : Nat) : Option Binary64 := ofRatio false (Nat.pow 10 k) 1

/-- Less than the distance `2 ^ -52` between one and its upper neighbour. -/
def belowEpsilon (num den : Nat) : Bool := num * Nat.pow 2 52 < den

/-! ## Comparison -/

/-- Order of `n` and `x`, exactly. -/
def compareInt (n : Int) (x : Binary64) : Ordering := compare (n * (Nat.pow 2 1074 : Nat)) x.units

def compareExact (x y : Binary64) : Ordering := compare x.units y.units

end Binary64

end SignedDocs
