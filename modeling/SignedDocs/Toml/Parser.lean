import SignedDocs.Date
import SignedDocs.Number.Word
import SignedDocs.Text.Hex
import SignedDocs.Text.Place
import SignedDocs.Toml.Document

/-!
Reading TOML text.

* `parse`: the entries of a document, or why the text is none.
* Values: strings of four kinds, booleans, integers of 64 bits in four bases,
  numbers with a fraction or a power of ten (finite after rounding), infinities,
  dates and times, arrays, and tables in one line; nested 80 deep at most.
-/

namespace SignedDocs.Toml

/-- A value and what follows it. -/
abbrev Parse (α : Type) := List Char → Except Fault (α × List Char)

def malformed {α : Type} : Except Fault α := .error .malformed

/-- One given character. -/
def mark (c : Char) : List Char → Except Fault (List Char)
  | [] => malformed
  | a :: rest => if a = c then .ok rest else malformed

/-! ## Blanks, comments, line ends -/

def skipBlank (cs : List Char) : List Char := cs.dropWhile fun c => c = ' ' || c = '\t'

/-- A character that may stand in a comment or a string. -/
def isPrintable (c : Char) : Bool := c = '\t' || (0x20 ≤ c.toNat && c.toNat != 0x7F)

/-- What is left at a line end; nothing more is needed at the end of the text. -/
def lineEnd? : List Char → Option (List Char)
  | [] => some []
  | '\n' :: rest => some rest
  | '\r' :: '\n' :: rest => some rest
  | _ => none

/-- The rest after a comment, if there is one. -/
def skipComment : List Char → List Char
  | '#' :: rest => rest.dropWhile isPrintable
  | cs => cs

/-- Blanks and a comment up to the line end. -/
def restOfLine (cs : List Char) : Except Fault (List Char) :=
  match lineEnd? (skipComment (skipBlank cs)) with
  | some rest => .ok rest
  | none => malformed

/-- Blanks, comments and line ends; each round takes a character. -/
def skipLines : Nat → List Char → Except Fault (List Char)
  | 0, cs => .ok cs
  | fuel + 1, cs =>
    match skipBlank cs with
    | '\n' :: rest => skipLines fuel rest
    | '\r' :: '\n' :: rest => skipLines fuel rest
    | '#' :: rest => do
      let rest ← restOfLine ('#' :: rest)
      skipLines fuel rest
    | cs => .ok cs

/-! ## Strings -/

/-- The character of some hexadecimal digits. -/
def codePoint (count : Nat) (cs : List Char) : Except Fault (Char × List Char) :=
  let ds := cs.take count
  match ds.mapM Text.hexValue? with
  | some values =>
    let n := Text.ofHex values
    if ds.length = count ∧ (n < 0xD800 ∨ 0xDFFF < n ∧ n < 0x110000) then
      .ok (Char.ofNat n, cs.drop count)
    else malformed
  | none => malformed

/-- The character after a backslash. -/
def escape : List Char → Except Fault (Char × List Char)
  | 'b' :: cs => .ok ('\x08', cs)
  | 't' :: cs => .ok ('\t', cs)
  | 'n' :: cs => .ok ('\n', cs)
  | 'f' :: cs => .ok ('\x0c', cs)
  | 'r' :: cs => .ok ('\r', cs)
  | '"' :: cs => .ok ('"', cs)
  | '\\' :: cs => .ok ('\\', cs)
  | 'u' :: cs => codePoint 4 cs
  | 'U' :: cs => codePoint 8 cs
  | _ => malformed

/-- A string in one line, up to its quote. -/
def shortString (quote : Char) : Nat → Parse (List Char)
  | 0, _ => malformed
  | _ + 1, [] => malformed
  | fuel + 1, c :: cs =>
    if c = quote then .ok ([], cs)
    else if c = '\\' ∧ quote = '"' then do
      let (e, cs) ← escape cs
      let (s, cs) ← shortString quote fuel cs
      pure (e :: s, cs)
    else if isPrintable c then do
      let (s, cs) ← shortString quote fuel cs
      pure (c :: s, cs)
    else malformed

/-- After a backslash at a line end: the rest without blanks and line ends. -/
def joinLines? (cs : List Char) : Option (List Char) :=
  match lineEnd? (skipBlank cs) with
  | some (c :: rest) => some ((c :: rest).dropWhile fun c => c = ' ' || c = '\t' || c = '\n' || c = '\r')
  | _ => none

/-- Quotes at the start. -/
def leadingQuotes (quote : Char) (cs : List Char) : Nat := (cs.takeWhile (· = quote)).length

/-- A string over several lines, up to its three quotes; up to two more quotes
before them belong to it. -/
def longString (quote : Char) : Nat → Parse (List Char)
  | 0, _ => malformed
  | _ + 1, [] => malformed
  | fuel + 1, c :: cs =>
    if c = quote then
      let n := leadingQuotes quote (c :: cs)
      if 5 < n then malformed
      else if 3 ≤ n then .ok (List.replicate (n - 3) quote, (c :: cs).drop n)
      else do
        let (s, rest) ← longString quote fuel ((c :: cs).drop n)
        pure (List.replicate n quote ++ s, rest)
    else if c = '\\' ∧ quote = '"' then
      match joinLines? cs with
      | some rest => longString quote fuel rest
      | none => do
        let (e, cs) ← escape cs
        let (s, cs) ← longString quote fuel cs
        pure (e :: s, cs)
    else if c = '\n' ∨ isPrintable c then do
      let (s, cs) ← longString quote fuel cs
      pure (c :: s, cs)
    else if c = '\r' then
      match cs with
      | '\n' :: rest => do
        let (s, rest) ← longString quote fuel rest
        pure ('\n' :: s, rest)
      | _ => malformed
    else malformed

/-- The text without a line end at its start. -/
def dropLineEnd : List Char → List Char
  | '\n' :: rest => rest
  | '\r' :: '\n' :: rest => rest
  | cs => cs

/-- A string after its first quote. -/
def stringAfter (quote : Char) (cs : List Char) : Except Fault (String × List Char) := do
  let (s, rest) ←
    if leadingQuotes quote cs ≥ 2 then longString quote (cs.length + 1) (dropLineEnd (cs.drop 2))
    else shortString quote (cs.length + 1) cs
  pure (String.ofList s, rest)

/-! ## Keys -/

def isBare (c : Char) : Bool := c.isAlphanum || c = '_' || c = '-'

/-- A key without points. -/
def simpleKey : Parse String
  | '"' :: rest =>
    if leadingQuotes '"' rest ≥ 2 then malformed else do
      let (s, rest) ← shortString '"' (rest.length + 1) rest
      pure (String.ofList s, rest)
  | '\'' :: rest =>
    if leadingQuotes '\'' rest ≥ 2 then malformed else do
      let (s, rest) ← shortString '\'' (rest.length + 1) rest
      pure (String.ofList s, rest)
  | cs =>
    let name := cs.takeWhile isBare
    if name.isEmpty then malformed else .ok (String.ofList name, cs.dropWhile isBare)

/-- Keys with points between them; places count from the end of a text of `total` bytes. -/
def dottedKey (total : Nat) : Nat → Parse (List Key)
  | 0, _ => malformed
  | fuel + 1, cs => do
    let cs := skipBlank cs
    let (name, rest) ← simpleKey cs
    let key : Key := ⟨name, ⟨total - Text.byteCount cs, total - Text.byteCount rest⟩⟩
    match skipBlank rest with
    | '.' :: rest => do
      let (keys, rest) ← dottedKey total fuel rest
      pure (key :: keys, rest)
    | rest => pure ([key], rest)

/-! ## Numbers and times -/

/-- Digits with single underscores between them. -/
def digitRun (isDigit : Char → Bool) (cs : List Char) : Option (List Char) :=
  let pieces := cs.splitOn '_'
  if pieces.all fun p => !p.isEmpty && p.all isDigit then some pieces.flatten else none

def digitsValue (base : Nat) (ds : List Char) : Nat :=
  ds.foldl (fun n c => base * n + (Text.hexValue? c).getD 0) 0

def isOctal (c : Char) : Bool := '0' ≤ c && c ≤ '7'

def isBinary (c : Char) : Bool := c = '0' || c = '1'

def isHex (c : Char) : Bool := (Text.hexValue? c).isSome

/-- Sign and rest. -/
def splitSign : List Char → Bool × List Char
  | '-' :: rest => (true, rest)
  | '+' :: rest => (false, rest)
  | cs => (false, cs)

/-- Decimal digits without a zero in front of others. -/
def decimalRun (cs : List Char) : Option (List Char) :=
  match digitRun Char.isDigit cs with
  | some ('0' :: _ :: _) => none
  | ds => ds

def inRange64 (n : Int) : Option Value :=
  if IsSigned 63 n then some (.integer n) else none

def integer? (cs : List Char) : Option Value :=
  match cs with
  | '0' :: 'x' :: rest => (digitRun isHex rest).bind fun ds => inRange64 (digitsValue 16 ds)
  | '0' :: 'o' :: rest => (digitRun isOctal rest).bind fun ds => inRange64 (digitsValue 8 ds)
  | '0' :: 'b' :: rest => (digitRun isBinary rest).bind fun ds => inRange64 (digitsValue 2 ds)
  | cs =>
    let (negative, rest) := splitSign cs
    (decimalRun rest).bind fun ds =>
      let n : Int := digitsValue 10 ds
      inRange64 (if negative then -n else n)

/-- The number nearest to `ds * 10 ^ e`, if it is finite. -/
def decimal? (negative : Bool) (ds : List Char) (e : Int) : Option Value :=
  let n := digitsValue 10 ds
  let top : Int := (ds.length : Int) + e
  if n = 0 ∨ top < -400 then some (.real (Binary64.zero negative))
  else if 400 + ds.length < top then none
  else (Binary64.ofRatio negative (n * Nat.pow 10 e.toNat) (Nat.pow 10 (-e).toNat)).map .real

/-- The power of ten that a mark is followed by. -/
def exponent? (cs : List Char) : Option Int :=
  let (negative, rest) := splitSign cs
  (digitRun Char.isDigit rest).map fun ds =>
    let n : Int := digitsValue 10 ds
    if negative then -n else n

def isExponentMark (c : Char) : Bool := c = 'e' || c = 'E'

/-- A number with a fraction or a power of ten. -/
def real? (cs : List Char) : Option Value :=
  let (negative, rest) := splitSign cs
  if rest = ['i', 'n', 'f'] then some (.infinity negative)
  else if rest = ['n', 'a', 'n'] then some .nan
  else do
    let body := rest.takeWhile fun c => !isExponentMark c
    let power := rest.dropWhile fun c => !isExponentMark c
    let whole := body.takeWhile (· != '.')
    let fraction := body.dropWhile (· != '.')
    if fraction.isEmpty && power.isEmpty then none
    let ds ← decimalRun whole
    let fs ← if fraction.isEmpty then some [] else digitRun Char.isDigit fraction.tail
    let e ← if power.isEmpty then some 0 else exponent? power.tail
    decimal? negative (ds ++ fs) (e - fs.length)

/-- Digits in pieces of the given lengths with the given marks after them. -/
def digitPieces : List (Nat × Char) → List Char → Option (List Nat)
  | [], cs => if cs.isEmpty then some [] else none
  | (n, c) :: more, cs =>
    let ds := cs.take n
    if ds.length = n ∧ ds.all Char.isDigit then
      match cs.drop n, more with
      | [], [] => some [digitsValue 10 ds]
      | a :: rest, more => if a = c then (digitPieces more rest).map (digitsValue 10 ds :: ·) else none
      | [], _ => none
    else none

def isDate (cs : List Char) : Bool :=
  match digitPieces [(4, '-'), (2, '-'), (2, ' ')] cs with
  | some [y, m, d] => 1 ≤ m && m ≤ 12 && 1 ≤ d && d ≤ daysInMonth y m
  | _ => false

/-- A time of day, possibly with a fraction of a second. -/
def isTime (cs : List Char) : Bool :=
  let whole := cs.takeWhile (· != '.')
  let fraction := cs.dropWhile (· != '.')
  (fraction.isEmpty || (1 < fraction.length && fraction.tail.all Char.isDigit)) &&
    match digitPieces [(2, ':'), (2, ':'), (2, ' ')] whole with
    | some [h, m, s] => h ≤ 23 && m ≤ 59 && s ≤ 60
    | _ => false

/-- A difference to universal time. -/
def isOffset (cs : List Char) : Bool :=
  match cs with
  | ['Z'] => true
  | ['z'] => true
  | c :: rest => (c = '+' || c = '-') && match digitPieces [(2, ':'), (2, ' ')] rest with
    | some [h, m] => h ≤ 23 && m ≤ 59
    | _ => false
  | [] => false

def isOffsetMark (c : Char) : Bool := c = 'Z' || c = 'z' || c = '+' || c = '-'

/-- A date, a time, or both, then possibly with an offset. -/
def isMoment (cs : List Char) : Bool :=
  isDate cs || isTime cs ||
    (isDate (cs.take 10) &&
      match cs.drop 10 with
      | c :: rest =>
        let time := rest.takeWhile fun c => !isOffsetMark c
        let offset := rest.dropWhile fun c => !isOffsetMark c
        (c = 'T' || c = 't' || c = ' ') && isTime time && (offset.isEmpty || isOffset offset)
      | [] => false)

def isScalarChar (c : Char) : Bool := isBare c || c = '+' || c = '.' || c = ':'

/-- The characters of a number or a time; a blank may stand between date and time. -/
def scalarChars (cs : List Char) : List Char × List Char :=
  let word := cs.takeWhile isScalarChar
  match isDate word, cs.dropWhile isScalarChar with
  | true, ' ' :: c :: rest =>
    if c.isDigit then
      (word ++ ' ' :: (c :: rest).takeWhile isScalarChar, (c :: rest).dropWhile isScalarChar)
    else (word, ' ' :: c :: rest)
  | _, rest => (word, rest)

/-- A boolean, a number or a time. -/
def scalar (cs : List Char) : Except Fault (Value × List Char) :=
  let (word, rest) := scalarChars cs
  if word = ['t', 'r', 'u', 'e'] then .ok (.bool true, rest)
  else if word = ['f', 'a', 'l', 's', 'e'] then .ok (.bool false, rest)
  else match (integer? word).or (real? word) with
    | some v => .ok (v, rest)
    | none => if isMoment word then .ok (.moment, rest) else malformed

/-! ## Containers -/

/-- Items of an array after its bracket. -/
def arrayItems (item : Parse Value) : Nat → Parse (List Value)
  | 0, _ => malformed
  | fuel + 1, cs => do
    match ← skipLines (cs.length + 1) cs with
    | ']' :: rest => pure ([], rest)
    | cs =>
      let (v, rest) ← item cs
      match ← skipLines (rest.length + 1) rest with
      | ',' :: rest => do
        let (vs, rest) ← arrayItems item fuel rest
        pure (v :: vs, rest)
      | ']' :: rest => pure ([v], rest)
      | _ => malformed

/-- A key, an equals sign and a value. -/
def assignment (item : Parse Value) (total : Nat) (cs : List Char) :
    Except Fault ((List Key × Span × Value) × List Char) := do
  let (keys, rest) ← dottedKey total (cs.length + 1) cs
  let rest ← mark '=' rest
  let start := skipBlank rest
  let (v, rest) ← item start
  pure ((keys, ⟨total - Text.byteCount start, total - Text.byteCount rest⟩, v), rest)

/-- Entries of a table in one line, of which the first is due. -/
def inlineEntries (item : Parse Value) : Nat → List (String × Value) → Parse (List (String × Value))
  | 0, _, _ => malformed
  | fuel + 1, es, cs => do
    let ((keys, _, v), rest) ← assignment item 0 cs
    let es ← plainValues es (keys.map Key.name, v)
    match skipBlank rest with
    | ',' :: rest => inlineEntries item fuel es rest
    | '}' :: rest => pure (es, rest)
    | _ => malformed

/-- A value with containers nested less than `depth` deep. -/
def value : Nat → Parse Value
  | 0, _ => malformed
  | depth + 1, cs =>
    match cs with
    | '"' :: rest => do
      let (s, rest) ← stringAfter '"' rest
      pure (.string s, rest)
    | '\'' :: rest => do
      let (s, rest) ← stringAfter '\'' rest
      pure (.string s, rest)
    | '[' :: rest => do
      let (vs, rest) ← arrayItems (value depth) (rest.length + 1) rest
      pure (.array vs, rest)
    | '{' :: rest =>
      match skipBlank rest with
      | '}' :: rest => .ok (.table [], rest)
      | rest => do
        let (es, rest) ← inlineEntries (value depth) (rest.length + 1) [] rest
        pure (.table es, rest)
    | cs => scalar cs

/-- Containers nest at most this deep. -/
def depthLimit : Nat := 80

/-! ## Documents -/

/-- A header after its first bracket. -/
def header (total : Nat) (start : List Char) (next : Bool) (cs : List Char) (d : Draft) :
    Except Fault (Draft × List Char) := do
  let (keys, rest) ← dottedKey total (cs.length + 1) cs
  let rest ← mark ']' rest
  let rest ← if next then mark ']' rest else pure rest
  match keys.getLast? with
  | some key =>
    let span : Span := ⟨total - Text.byteCount start, total - Text.byteCount rest⟩
    let d ← d.openHeader keys.dropLast key span next
    pure (d, rest)
  | none => malformed

/-- A line that is not blank: a header or an assignment. -/
def statement (total : Nat) (d : Draft) (cs : List Char) : Except Fault (Draft × List Char) :=
  match cs with
  | '[' :: '[' :: rest => header total cs true rest d
  | '[' :: rest => header total cs false rest d
  | cs => do
    let ((keys, span, v), rest) ← assignment (value depthLimit) total cs
    match keys.getLast? with
    | some key =>
      let d ← d.inCurrent (setKey keys.dropLast key span v)
      pure (d, rest)
    | none => malformed

/-- All lines; each round takes a character. -/
def statements (total : Nat) : Nat → Draft → List Char → Except Fault Draft
  | 0, d, _ => .ok d
  | fuel + 1, d, cs => do
    match ← skipLines (cs.length + 1) cs with
    | [] => pure d
    | cs =>
      let (d, rest) ← statement total d cs
      let rest ← restOfLine rest
      statements total fuel d rest

/-- The text without a byte order mark. -/
def dropOrderMark : List Char → List Char
  | '\uFEFF' :: rest => rest
  | cs => cs

/-- The entries of a document. -/
def parse (text : String) : Except Fault Entries := do
  let cs := text.toList
  let d ← statements (Text.byteCount cs) (cs.length + 1) .empty (dropOrderMark cs)
  pure d.root

end SignedDocs.Toml
