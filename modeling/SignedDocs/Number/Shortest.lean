import SignedDocs.Number.Binary64

/-!
Decimal text of a binary64 number: the fewest digits that read back.

* `readsBack`: a decimal lies among the numbers that round to `x`.
* `shortest`: on the first grid of 1, 2, … 17 digits with such a decimal, the one
  nearest to `x`.
* `Layout`, `render`: how digits and exponent are written.
-/

namespace SignedDocs

/-- `digits * 10 ^ exponent`. -/
structure Decimal where
  digits : Nat
  exponent : Int
deriving DecidableEq, Repr

namespace Decimal

/-- Order of `d` and `num / den`. -/
def compareRatio (d : Decimal) (num den : Nat) : Ordering :=
  compare (d.digits * Nat.pow 10 d.exponent.toNat * den) (num * Nat.pow 10 (-d.exponent).toNat)

/-- Zeros at the end of the digits, moved into the exponent. -/
def strip : Nat → Decimal → Decimal
  | 0, d => d
  | fuel + 1, d =>
    if d.digits ≠ 0 ∧ d.digits % 10 = 0 then strip fuel ⟨d.digits / 10, d.exponent + 1⟩ else d

end Decimal

/-- Which of two decimals at the same distance is taken. -/
inductive Tie where
  | toEven
  | upward
deriving DecidableEq, Repr

namespace Binary64

/-- The gap to the number below is half the gap to the number above. -/
def narrowBelow (x : Binary64) : Bool := x.mantissa == Nat.pow 2 52 && x.exponent != leastExponent

/-- `d` rounds to `x`: it lies between the midpoints to the neighbours, which
belong to `x` when the mantissa is even. -/
def readsBack (x : Binary64) (d : Decimal) : Bool :=
  let (loNum, loDen) := scaled (if x.narrowBelow then 4 * x.mantissa - 1 else 4 * x.mantissa - 2)
    (x.exponent - 2)
  let (hiNum, hiDen) := scaled (4 * x.mantissa + 2) (x.exponent - 2)
  let ends := x.mantissa % 2 == 0
  let lo := d.compareRatio loNum loDen
  let hi := d.compareRatio hiNum hiDen
  (lo == .gt || (ends && lo == .eq)) && (hi == .lt || (ends && hi == .eq))

/-- Least `k` with `num / den < 10 ^ k`, searched from `start` upwards. -/
def decimalScale (num den : Nat) : Nat → Int → Int
  | 0, k => k
  | fuel + 1, k =>
    if num * Nat.pow 10 (-k).toNat < den * Nat.pow 10 k.toNat then k else decimalScale num den fuel (k + 1)

/-- Best decimal on the grid `10 ^ e`: of the neighbours of `x` that read back the nearer. -/
def onGrid (tie : Tie) (x : Binary64) (e : Int) : Option Decimal :=
  let (num, den) := x.magnitude
  let n := num * Nat.pow 10 (-e).toNat
  let d := den * Nat.pow 10 e.toNat
  let below : Decimal := ⟨n / d, e⟩
  let above : Decimal := ⟨n / d + 1, e⟩
  match x.readsBack below, x.readsBack above with
  | true, true =>
    let twice := 2 * (n % d)
    if twice < d then some below
    else if d < twice then some above
    else match tie with
      | .toEven => if below.digits % 2 = 0 then some below else some above
      | .upward => some above
  | true, false => some below
  | false, true => some above
  | false, false => none

/-- The shortest decimal that reads back as `x`, which is not zero. Seventeen
digits always suffice; the exact value stands behind them. -/
def shortest (tie : Tie) (x : Binary64) : Decimal :=
  let (num, den) := x.magnitude
  let estimate : Int := ((num.log2 : Int) - (den.log2 : Int) - 1) * 30103 / 100000
  let scale := decimalScale num den 20 (estimate - 1)
  let found := (List.range 17).findSome? fun i => x.onGrid tie (scale - (i + 1 : Nat))
  let exact : Decimal := ⟨num * Nat.pow 5 (-x.exponent).toNat, min x.exponent 0⟩
  (found.getD exact).strip 800

end Binary64

/-! ## Layout -/

/-- How a decimal is written. `plain` says for which exponents of the leading
digit no power of ten is written; `tie` decides between equally near digits. -/
structure Layout where
  plain : Int → Bool
  pointZero : Bool
  tie : Tie

namespace Layout

/-- Positional text of digits with the point `point` places from their left. -/
def positional (layout : Layout) (digits : List Char) (point : Int) : List Char :=
  let n : Int := digits.length
  if n ≤ point then
    digits ++ List.replicate (point - n).toNat '0' ++ (if layout.pointZero then ['.', '0'] else [])
  else if 0 < point then
    digits.take point.toNat ++ '.' :: digits.drop point.toNat
  else
    '0' :: '.' :: List.replicate (-point).toNat '0' ++ digits

/-- Digits with a power of ten. -/
def scientific (digits : List Char) (leading : Int) : List Char :=
  let mark := 'e' :: (toString leading).toList
  match digits with
  | d :: e :: rest => d :: '.' :: e :: rest ++ mark
  | ds => ds ++ mark

def unsigned (layout : Layout) (x : Binary64) : List Char :=
  if x.isZero then layout.positional ['0'] 1
  else
    let d := x.shortest layout.tie
    let digits := (toString d.digits).toList
    let leading := (digits.length : Int) + d.exponent - 1
    if layout.plain leading then layout.positional digits (leading + 1)
    else scientific digits leading

/-- Text of a number; the sign of zero is kept. -/
def render (layout : Layout) (x : Binary64) : String :=
  String.ofList (if x.negative then '-' :: layout.unsigned x else layout.unsigned x)

end Layout

end SignedDocs
