/-!
White space and lines of a text.

* `isBlank`: the characters with the Unicode property White_Space (25 of them).
* `trim`, `trimEnd`: a text without the blank characters at its ends.
* `lines`: the pieces between line feeds; a carriage return before a line feed
  belongs to the line break, and an empty last piece is no line.
-/

namespace SignedDocs.Text

/-- Closed ranges of code points, ascending and apart: the property White_Space. -/
def blankRanges : List (Nat × Nat) :=
  [(0x09, 0x0D), (0x20, 0x20), (0x85, 0x85), (0xA0, 0xA0), (0x1680, 0x1680),
   (0x2000, 0x200A), (0x2028, 0x2029), (0x202F, 0x202F), (0x205F, 0x205F), (0x3000, 0x3000)]

/-- Some range holds the code point. -/
def inRanges (ranges : List (Nat × Nat)) (n : Nat) : Bool :=
  ranges.any fun r => decide (r.1 ≤ n) && decide (n ≤ r.2)

def isBlank (c : Char) : Bool := inRanges blankRanges c.toNat

/-! ## Trimming -/

def trimStartChars (cs : List Char) : List Char := cs.dropWhile isBlank

def trimEndChars (cs : List Char) : List Char := (cs.reverse.dropWhile isBlank).reverse

def trimChars (cs : List Char) : List Char := trimEndChars (trimStartChars cs)

/-- The text without the blank characters at both ends. -/
def trim (s : String) : String := String.ofList (trimChars s.toList)

/-- The text without the blank characters at its end. -/
def trimEnd (s : String) : String := String.ofList (trimEndChars s.toList)

theorem trimStartChars_cons {c : Char} (h : isBlank c = false) (cs : List Char) :
    trimStartChars (c :: cs) = c :: cs :=
  List.dropWhile_cons_of_neg (Bool.eq_false_iff.mp h)

/-! ## Lines -/

/-- A piece without the carriage return at its end. -/
def dropReturn (cs : List Char) : List Char :=
  if cs.getLast? = some '\r' then cs.dropLast else cs

/-- The last piece is a line only if it is not empty, and keeps its carriage return. -/
def lineChars (cs : List Char) : List (List Char) :=
  let pieces := cs.splitOn '\n'
  pieces.dropLast.map dropReturn ++ (pieces.getLast?.toList.filter fun piece => !piece.isEmpty)

def lines (s : String) : List String := (lineChars s.toList).map String.ofList

/-! ## Joining -/

/-- The texts one after the other, with `sep` between neighbours. -/
def join (sep : String) (parts : List String) : String := String.intercalate sep parts

/-- The text begins with the other one. -/
def startsWith (s start : String) : Bool := start.toList.isPrefixOf s.toList

end SignedDocs.Text
