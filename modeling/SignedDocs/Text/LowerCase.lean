import SignedDocs.Text.CaseTable
import SignedDocs.Text.Blank

/-!
Lower case of a text.

* Every character of a run goes to its image; all others stay.
* U+0130 becomes two characters, `i` and a dot above.
* A capital sigma at the end of a word becomes a final sigma: what stands before
  it, case-ignorable characters skipped, has case, and what follows has not.
-/

namespace SignedDocs.Text

/-- Image of a code point under the runs; outside of them the code point itself. -/
def lowerCodePoint (n : Nat) : Nat :=
  match lowerRuns.find? fun r => decide (r.1 ≤ n) && decide (n ≤ r.2.1) && (n - r.1) % r.2.2.1 == 0 with
  | some r => r.2.2.2 + (n - r.1)
  | none => n

/-- Lower case of a character that stands alone. -/
def lowerChar (c : Char) : List Char :=
  if c = 'İ' then ['i', '\u0307'] else [Char.ofNat (lowerCodePoint c.toNat)]

/-- The first character that is not case-ignorable has case. -/
def casedNext (cs : List Char) : Bool :=
  match cs.dropWhile fun c => inRanges caseIgnorable c.toNat with
  | c :: _ => inRanges casedRanges c.toNat
  | [] => false

/-- Lower case of a text after the characters `before`, nearest first. -/
def lowerAfter (before : List Char) : List Char → List Char
  | [] => []
  | c :: cs =>
    let image :=
      if c = 'Σ' then (if casedNext before && !casedNext cs then ['ς'] else ['σ']) else lowerChar c
    image ++ lowerAfter (c :: before) cs

def lower (s : String) : String := String.ofList (lowerAfter [] s.toList)

end SignedDocs.Text
