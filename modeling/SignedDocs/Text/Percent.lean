import SignedDocs.Text.Hex

/-!
Percent escapes: a byte as `%` and two hexadecimal digits.

* `percentDecode`: the text whose bytes are meant; a `%` without two digits after
  it stands for itself.
* `percentEncode`: bytes of the characters that a fragment of an address must not
  hold are escaped.
-/

namespace SignedDocs.Text

/-- The number that a digit, given as a byte, stands for. -/
def byteValue? (b : UInt8) : Option Nat := hexValue? (Char.ofNat b.toNat)

/-- The bytes that are meant. -/
def percentBytes : List UInt8 → List UInt8
  | [] => []
  | [b] => [b]
  | [b, c] => [b, c]
  | b :: c :: d :: rest =>
    if b = 0x25 then
      match byteValue? c, byteValue? d with
      | some m, some n => UInt8.ofNat (16 * m + n) :: percentBytes rest
      | _, _ => b :: percentBytes (c :: d :: rest)
    else b :: percentBytes (c :: d :: rest)

/-- The text without escapes; `none` if its bytes are no UTF-8. -/
def percentDecode (s : String) : Option String :=
  String.fromUTF8? ⟨(percentBytes s.toUTF8.data.toList).toArray⟩

/-- The character may stand in a fragment. -/
def isFragmentChar (c : Char) : Bool :=
  0x20 < c.toNat && c.toNat < 0x7F && c != '"' && c != '<' && c != '>' && c != '\x60'

/-- A byte as an escape. -/
def percentEscape (b : UInt8) : List Char := '%' :: (toHex 2 b.toNat).map fun n => (hexDigit n).toUpper

/-- The text with escapes. -/
def percentEncode (s : String) : String :=
  String.ofList <| s.toList.flatMap fun c =>
    if isFragmentChar c then [c] else (String.ofList [c]).toUTF8.data.toList.flatMap percentEscape

end SignedDocs.Text
