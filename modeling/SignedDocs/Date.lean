import SignedDocs.Number.Word
import SignedDocs.Text.Blank

/-!
Calendar dates.

* Reading: year, month and day with hyphens between them. Blanks may stand before
  each number and hyphen and at the end. A year has up to four digits, or any
  number of them after a sign; month and day have one or two.
* Writing: `YYYY-MM-DD`, with a sign before years outside 0 to 9999.
-/

namespace SignedDocs

/-! ## The calendar -/

def isLeapYear (year : Int) : Bool := year % 4 == 0 && (year % 100 != 0 || year % 400 == 0)

def daysInMonth (year : Int) (month : Nat) : Nat :=
  if month = 2 then (if isLeapYear year then 29 else 28)
  else if month = 4 ∨ month = 6 ∨ month = 9 ∨ month = 11 then 30
  else 31

/-- Years, months and days that make a date. -/
def IsDate (year : Int) (month day : Nat) : Prop :=
  -262143 ≤ year ∧ year ≤ 262142 ∧ 1 ≤ month ∧ month ≤ 12 ∧ 1 ≤ day ∧ day ≤ daysInMonth year month

instance (year : Int) (month day : Nat) : Decidable (IsDate year month day) :=
  inferInstanceAs (Decidable (_ ∧ _))

structure Date where
  year : Int
  month : Nat
  day : Nat
  isDate : IsDate year month day
deriving DecidableEq

namespace Date

/-- The first day of 1970. -/
def epoch : Date := ⟨1970, 1, 1, by decide⟩

instance : Inhabited Date := ⟨epoch⟩

/-- Earlier or the same day. -/
def le (a b : Date) : Bool :=
  decide (a.year < b.year) || (a.year == b.year &&
    (decide (a.month < b.month) || (a.month == b.month && decide (a.day ≤ b.day))))

def max (a b : Date) : Date := if a.le b then b else a

/-- The latest of some days. -/
def latest? : List Date → Option Date
  | [] => none
  | d :: ds => some (ds.foldl max d)

/-! ## Writing -/

/-- Digits of a number, with zeros in front up to `width`. -/
def padded (width n : Nat) : List Char :=
  let ds := Nat.toDigits 10 n
  List.replicate (width - ds.length) '0' ++ ds

def yearChars (year : Int) : List Char :=
  if year < 0 then '-' :: padded 4 year.natAbs
  else if 9999 < year then '+' :: padded 4 year.natAbs
  else padded 4 year.natAbs

def render (d : Date) : String :=
  String.ofList (yearChars d.year ++ '-' :: padded 2 d.month ++ '-' :: padded 2 d.day)

/-! ## Reading -/

inductive Fault where
  | tooShort
  | invalid
  | outOfRange
  | tooLong
deriving DecidableEq, Repr

def Fault.message : Fault → String
  | .tooShort => "premature end of input"
  | .invalid => "input contains invalid characters"
  | .outOfRange => "input is out of range"
  | .tooLong => "trailing input"

/-- Digits at the start, at most `width` of them, and what follows. -/
def splitDigits (width : Nat) (cs : List Char) : List Char × List Char :=
  let ds := (cs.take width).takeWhile Char.isDigit
  (ds, cs.drop ds.length)

/-- A number of at most `width` digits, below `2 ^ 63`. -/
def number (width : Nat) (cs : List Char) : Except Fault (Nat × List Char) :=
  match cs with
  | [] => .error .tooShort
  | _ =>
    let (ds, rest) := splitDigits width cs
    if ds.isEmpty then .error .invalid
    else
      let n := ds.foldl (fun n c => 10 * n + (c.toNat - '0'.toNat)) 0
      if Nat.pow 2 63 ≤ n then .error .outOfRange else .ok (n, rest)

/-- A year of 32 bits. -/
def yearField (cs : List Char) : Except Fault (Int × List Char) := do
  let (y, rest) ← match Text.trimStartChars cs with
    | '-' :: rest => (number rest.length rest).map fun r => (-(r.1 : Int), r.2)
    | '+' :: rest => (number rest.length rest).map fun r => ((r.1 : Int), r.2)
    | rest => (number 4 rest).map fun r => ((r.1 : Int), r.2)
  if IsSigned 31 y then pure (y, rest) else .error .outOfRange

/-- A number from 1 to `top`. -/
def smallField (top : Nat) (cs : List Char) : Except Fault (Nat × List Char) := do
  let (n, rest) ← number 2 (Text.trimStartChars cs)
  if n < 1 ∨ top < n then .error .outOfRange else pure (n, rest)

def hyphen (cs : List Char) : Except Fault (List Char) :=
  match Text.trimStartChars cs with
  | [] => .error .tooShort
  | c :: rest => if c = '-' then .ok rest else .error .invalid

def parse (s : String) : Except Fault Date := do
  let (year, rest) ← yearField s.toList
  let rest ← hyphen rest
  let (month, rest) ← smallField 12 rest
  let rest ← hyphen rest
  let (day, rest) ← smallField 31 rest
  if !(Text.trimStartChars rest).isEmpty then .error .tooLong
  else if h : IsDate year month day then pure ⟨year, month, day, h⟩
  else .error .outOfRange

end Date

end SignedDocs
