/-!
Places in a text, counted in bytes of UTF-8.
-/

namespace SignedDocs.Text

/-- Bytes of some characters. -/
def byteCount : List Char → Nat
  | [] => 0
  | c :: cs => c.utf8Size + byteCount cs

/-- Line and column after `count` bytes; the column counts bytes of the line. -/
def placeAfter : Nat → Nat × Nat → List Char → Nat × Nat
  | _, place, [] => place
  | count, (line, column), c :: cs =>
    if count = 0 then (line, column)
    else if c = '\n' then placeAfter (count - 1) (line + 1, 0) cs
    else if count < c.utf8Size then (line, column + count)
    else placeAfter (count - c.utf8Size) (line, column + c.utf8Size) cs

/-- The characters that begin within the first `count` bytes. -/
def takeBytes : Nat → List Char → List Char
  | _, [] => []
  | count, c :: cs => if count = 0 then [] else c :: takeBytes (count - c.utf8Size) cs

end SignedDocs.Text
