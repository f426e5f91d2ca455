import SignedDocs.Json.Basic
import SignedDocs.Text.Hex
import SignedDocs.Text.Place

/-!
Reading JSON text.

* `parse`: the value of a text, or what is wrong and where (`Malformed`).
* Containers nest at most 127 deep.
* A number that is not an integer of 64 bits is its leading digits (as many as
  fit 64 bits) rounded to binary64, then multiplied or divided once by a rounded
  power of ten; the result must be finite.
* Places are counted in bytes of UTF-8: a fault seen before its character is
  taken counts one byte of it.
-/

namespace SignedDocs.Json

/-- What is wrong with a text. -/
inductive Fault where
  | eofList
  | eofObject
  | eofString
  | eofValue
  | expectedColon
  | expectedListCommaOrEnd
  | expectedObjectCommaOrEnd
  | expectedIdent
  | expectedValue
  | invalidEscape
  | invalidNumber
  | numberOutOfRange
  | controlCharacter
  | keyMustBeString
  | loneSurrogate
  | trailingComma
  | trailingCharacters
  | endOfHexEscape
  | nesting
deriving DecidableEq, Repr

def Fault.message : Fault → String
  | .eofList => "EOF while parsing a list"
  | .eofObject => "EOF while parsing an object"
  | .eofString => "EOF while parsing a string"
  | .eofValue => "EOF while parsing a value"
  | .expectedColon => "expected `:`"
  | .expectedListCommaOrEnd => "expected `,` or `]`"
  | .expectedObjectCommaOrEnd => "expected `,` or `\x7d`"
  | .expectedIdent => "expected ident"
  | .expectedValue => "expected value"
  | .invalidEscape => "invalid escape"
  | .invalidNumber => "invalid number"
  | .numberOutOfRange => "number out of range"
  | .controlCharacter => "control character (\\u0000-\\u001F) found while parsing a string"
  | .keyMustBeString => "key must be a string"
  | .loneSurrogate => "lone leading surrogate in hex escape"
  | .trailingComma => "trailing comma"
  | .trailingCharacters => "trailing characters"
  | .endOfHexEscape => "unexpected end of hex escape"
  | .nesting => "recursion limit exceeded"

/-- A fault and the number of bytes that were not read. -/
structure Malformed where
  fault : Fault
  unread : Nat
deriving DecidableEq, Repr

/-- A value and what follows it. -/
abbrev Parse (α : Type) := List Char → Except Malformed (α × List Char)

/-- A fault with `cs` left. -/
def failAt {α : Type} (fault : Fault) (cs : List Char) : Except Malformed α :=
  .error ⟨fault, Text.byteCount cs⟩

/-- A fault with one byte of `cs` looked at. -/
def failPeek {α : Type} (fault : Fault) (cs : List Char) : Except Malformed α :=
  .error ⟨fault, Text.byteCount cs - 1⟩

def skipBlank (cs : List Char) : List Char :=
  cs.dropWhile fun c => c = ' ' || c = '\n' || c = '\t' || c = '\r'

/-! ## Words -/

/-- The rest of a word whose first letter was read. -/
def word (v : Json) : List Char → Parse Json
  | [], cs => .ok (v, cs)
  | _ :: _, [] => failAt .eofValue []
  | w :: ws, c :: cs => if c = w then word v ws cs else failPeek .expectedIdent (c :: cs)

/-! ## Strings -/

/-- Four hexadecimal digits. -/
def hexEscape (cs : List Char) : Except Malformed (Nat × List Char) :=
  if Text.byteCount cs < 4 then failAt .eofString []
  else
    match (cs.take 4).mapM Text.hexValue? with
    | some ds => .ok (Text.ofHex ds, cs.drop 4)
    | none => .error ⟨.invalidEscape, Text.byteCount cs - 4⟩

/-- One given character of an escape. -/
def escapeMark (mark : Char) : List Char → Except Malformed (List Char)
  | [] => failAt .eofString []
  | c :: cs => if c = mark then .ok cs else failPeek .endOfHexEscape (c :: cs)

/-- The character of a `u` escape; a leading surrogate takes its partner with it. -/
def unicodeEscape (cs : List Char) : Except Malformed (Char × List Char) := do
  let (n, cs) ← hexEscape cs
  if 0xDC00 ≤ n ∧ n ≤ 0xDFFF then failAt .loneSurrogate cs
  else if n < 0xD800 ∨ 0xDBFF < n then pure (Char.ofNat n, cs)
  else
    let cs ← escapeMark '\\' cs
    let cs ← escapeMark 'u' cs
    let (m, cs) ← hexEscape cs
    if m < 0xDC00 ∨ 0xDFFF < m then failAt .loneSurrogate cs
    else pure (Char.ofNat (0x10000 + (n - 0xD800) * 0x400 + (m - 0xDC00)), cs)

/-- The character after a backslash. -/
def escape : List Char → Except Malformed (Char × List Char)
  | [] => failAt .eofString []
  | '"' :: cs => .ok ('"', cs)
  | '\\' :: cs => .ok ('\\', cs)
  | '/' :: cs => .ok ('/', cs)
  | 'b' :: cs => .ok ('\x08', cs)
  | 'f' :: cs => .ok ('\x0c', cs)
  | 'n' :: cs => .ok ('\n', cs)
  | 'r' :: cs => .ok ('\r', cs)
  | 't' :: cs => .ok ('\t', cs)
  | 'u' :: cs => unicodeEscape cs
  | cs => failPeek .invalidEscape cs

/-- Characters up to the closing quote, those read so far last first. -/
def stringTail : Nat → List Char → Parse String
  | 0, _, _ => failAt .eofString []
  | _ + 1, _, [] => failAt .eofString []
  | _ + 1, acc, '"' :: cs => .ok (String.ofList acc.reverse, cs)
  | fuel + 1, acc, '\\' :: cs => do
    let (c, cs) ← escape cs
    stringTail fuel (c :: acc) cs
  | fuel + 1, acc, c :: cs =>
    if c.toNat < 0x20 then failAt .controlCharacter cs else stringTail fuel (c :: acc) cs

/-- A string whose opening quote was read. Each step takes a character. -/
def stringBody (cs : List Char) : Except Malformed (String × List Char) :=
  stringTail (cs.length + 1) [] cs

/-! ## Numbers -/

def digitValue (c : Char) : Nat := c.toNat - '0'.toNat

/-- Digits of the integer part: the number they form while it fits 64 bits, and
how many digits came after that. -/
def leadingDigits : Nat → List Char → Nat × Nat
  | n, [] => (n, 0)
  | n, c :: cs =>
    let next := 10 * n + digitValue c
    if next < Nat.pow 2 64 then leadingDigits next cs else (n, cs.length + 1)

/-- Digits after the point, appended while the number fits: it and how many were. -/
def fractionDigits : Nat → List Char → Nat × Nat
  | n, [] => (n, 0)
  | n, c :: cs =>
    let next := 10 * n + digitValue c
    if next < Nat.pow 2 64 then
      let (m, k) := fractionDigits next cs
      (m, k + 1)
    else (n, 0)

/-- `x` times `10 ^ e`, with a rounding at each step; `none` if too large. Below
`10 ^ -308` the number is divided by `10 ^ 308` first. -/
def scaleTen : Nat → Binary64 → Int → Option Binary64
  | 0, x, _ => some x
  | fuel + 1, x, e =>
    if e.natAbs ≤ 308 then do
      let p ← Binary64.powerOfTen e.natAbs
      if 0 ≤ e then x.mul p else x.div p
    else if x.isZero then some x
    else if 0 ≤ e then none
    else do
      let y ← x.div (← Binary64.powerOfTen 308)
      scaleTen fuel y (e + 308)

/-- The number `n * 10 ^ e`. Three divisions by `10 ^ 308` leave zero. -/
def realNumber (negative : Bool) (n : Nat) (e : Int) (cs : List Char) :
    Except Malformed (Json × List Char) :=
  match (Binary64.ofNat n).bind fun x => scaleTen 5 x e with
  | some x => .ok (.number (.real (if negative then x.neg else x)), cs)
  | none => failAt .numberOutOfRange cs

/-- An integer: exact if it has 64 bits and is not minus zero. -/
def integerNumber (negative : Bool) (n : Nat) (cs : List Char) :
    Except Malformed (Json × List Char) :=
  if !negative then .ok (.int n, cs)
  else if n = 0 ∨ Nat.pow 2 63 < n then realNumber true n 0 cs
  else .ok (.int (-(n : Int)), cs)

/-- Largest exponent that is counted. -/
def exponentLimit : Nat := Nat.pow 2 31 - 1

/-- Digits of an exponent; `none` with what is left when it is over the limit. -/
def exponentDigits : Nat → List Char → Option Nat × List Char
  | n, [] => (some n, [])
  | n, c :: cs =>
    if c.isDigit then
      let next := 10 * n + digitValue c
      if exponentLimit < next then (none, cs) else exponentDigits next cs
    else (some n, c :: cs)

/-- The exponent after its mark, added to `start`. -/
def exponentPart (negative : Bool) (n : Nat) (start : Int) (cs : List Char) :
    Except Malformed (Json × List Char) :=
  let (up, cs) : Bool × List Char := match cs with
    | '+' :: rest => (true, rest)
    | '-' :: rest => (false, rest)
    | rest => (true, rest)
  match cs with
  | [] => failAt .eofValue []
  | c :: rest =>
    if !c.isDigit then failPeek .invalidNumber (c :: rest)
    else match exponentDigits (digitValue c) rest with
      | (some e, rest) => realNumber negative n (if up then start + e else start - e) rest
      | (none, rest) =>
        if n ≠ 0 ∧ up then failAt .numberOutOfRange rest
        else
          let zero := Binary64.zero negative
          .ok (.number (.real zero), rest.dropWhile Char.isDigit)

/-- What follows the integer part `n`, of which `dropped` digits were left out. -/
def afterInteger (negative : Bool) (n dropped : Nat) (cs : List Char) :
    Except Malformed (Json × List Char) :=
  match cs with
  | '.' :: rest =>
    let digits := rest.takeWhile Char.isDigit
    let rest := rest.dropWhile Char.isDigit
    if digits.isEmpty then
      failPeek (if rest.isEmpty then .eofValue else .invalidNumber) rest
    else
      let (n, k) := fractionDigits n digits
      let e : Int := (dropped : Int) - k
      match rest with
      | 'e' :: rest => exponentPart negative n e rest
      | 'E' :: rest => exponentPart negative n e rest
      | rest => realNumber negative n e rest
  | 'e' :: rest => exponentPart negative n dropped rest
  | 'E' :: rest => exponentPart negative n dropped rest
  | rest => if dropped = 0 then integerNumber negative n rest else realNumber negative n dropped rest

/-- A number after its sign. -/
def numberBody (negative : Bool) (cs : List Char) : Except Malformed (Json × List Char) :=
  match cs with
  | [] => failAt .eofValue []
  | '0' :: rest =>
    match rest with
    | c :: _ => if c.isDigit then failPeek .invalidNumber rest else afterInteger negative 0 0 rest
    | [] => afterInteger negative 0 0 []
  | c :: _ =>
    if c.isDigit then
      let (n, dropped) := leadingDigits 0 (cs.takeWhile Char.isDigit)
      afterInteger negative n dropped (cs.dropWhile Char.isDigit)
    else failPeek .invalidNumber cs

/-! ## Containers -/

/-- Elements after the first one, those read so far last first. -/
def arrayTail (element : Parse Json) : Nat → List Json → Parse (List Json)
  | 0, _, cs => failPeek .eofList cs
  | fuel + 1, acc, cs =>
    match skipBlank cs with
    | [] => failPeek .eofList []
    | ']' :: rest => .ok (acc.reverse, rest)
    | ',' :: rest =>
      match skipBlank rest with
      | [] => failPeek .eofValue []
      | ']' :: rest => failPeek .trailingComma (']' :: rest)
      | rest => do
        let (v, rest) ← element rest
        arrayTail element fuel (v :: acc) rest
    | rest => failPeek .expectedListCommaOrEnd rest

/-- Elements of an array whose bracket was read. -/
def arrayBody (element : Parse Json) (cs : List Char) : Except Malformed (List Json × List Char) :=
  match skipBlank cs with
  | [] => failPeek .eofList []
  | ']' :: rest => .ok ([], rest)
  | rest => do
    let (v, rest) ← element rest
    arrayTail element (rest.length + 1) [v] rest

/-- A colon and the value after it. -/
def entryValue (element : Parse Json) (cs : List Char) : Except Malformed (Json × List Char) :=
  match skipBlank cs with
  | [] => failPeek .eofObject []
  | ':' :: rest => element (skipBlank rest)
  | rest => failPeek .expectedColon rest

/-- A key, whose opening quote was read, and its value. -/
def entry (element : Parse Json) (cs : List Char) :
    Except Malformed ((String × Json) × List Char) := do
  let (k, rest) ← stringBody cs
  let (v, rest) ← entryValue element rest
  pure ((k, v), rest)

/-- Entries after the first one, those read so far last first. -/
def objectTail (element : Parse Json) : Nat → List (String × Json) → Parse (List (String × Json))
  | 0, _, cs => failPeek .eofObject cs
  | fuel + 1, acc, cs =>
    match skipBlank cs with
    | [] => failPeek .eofObject []
    | '}' :: rest => .ok (acc.reverse, rest)
    | ',' :: rest =>
      match skipBlank rest with
      | [] => failPeek .eofValue []
      | '"' :: rest => do
        let (e, rest) ← entry element rest
        objectTail element fuel (e :: acc) rest
      | '}' :: rest => failPeek .trailingComma ('}' :: rest)
      | rest => failPeek .keyMustBeString rest
    | rest => failPeek .expectedObjectCommaOrEnd rest

/-- Entries of an object whose brace was read. -/
def objectBody (element : Parse Json) (cs : List Char) :
    Except Malformed (List (String × Json) × List Char) :=
  match skipBlank cs with
  | [] => failPeek .eofObject []
  | '}' :: rest => .ok ([], rest)
  | '"' :: rest => do
    let (e, rest) ← entry element rest
    objectTail element (rest.length + 1) [e] rest
  | rest => failPeek .keyMustBeString rest

/-- A value without blanks before it, with containers nested less than `depth` deep. -/
def value : Nat → Parse Json
  | 0, cs => failPeek .nesting cs
  | depth + 1, cs =>
    match cs with
    | [] => failPeek .eofValue []
    | 'n' :: rest => word .null ['u', 'l', 'l'] rest
    | 't' :: rest => word (.bool true) ['r', 'u', 'e'] rest
    | 'f' :: rest => word (.bool false) ['a', 'l', 's', 'e'] rest
    | '-' :: rest => numberBody true rest
    | '"' :: rest => do
      let (s, rest) ← stringBody rest
      pure (.string s, rest)
    | '[' :: rest =>
      if depth = 0 then failPeek .nesting cs
      else do
        let (vs, rest) ← arrayBody (value depth) rest
        pure (.array vs, rest)
    | '{' :: rest =>
      if depth = 0 then failPeek .nesting cs
      else do
        let (es, rest) ← objectBody (value depth) rest
        pure (.object (Table.ofList es).entries, rest)
    | c :: _ => if c.isDigit then numberBody false cs else failPeek .expectedValue cs

/-- One level more than containers may nest. -/
def depthLimit : Nat := 128

/-- The value of a whole text. -/
def parse (text : String) : Except Malformed Json := do
  let (v, rest) ← value depthLimit (skipBlank text.toList)
  match skipBlank rest with
  | [] => pure v
  | rest => failPeek .trailingCharacters rest

/-! ## Places -/

/-- What is wrong with `text`, and where. -/
def Malformed.message (m : Malformed) (text : String) : String :=
  let cs := text.toList
  let (line, column) := Text.placeAfter (Text.byteCount cs - m.unread) (1, 0) cs
  m.fault.message ++ " at line " ++ toString line ++ " column " ++ toString column

end SignedDocs.Json
