import SignedDocs.Json.Basic
import SignedDocs.Text.Quoted

/-!
Compact JSON text: no blanks, entries in their order.
-/

namespace SignedDocs

/-- Numbers that are not integers have the fewest digits that read back, ties to
even; positional with a point from `10 ^ -5` up to `10 ^ 16`, otherwise with a
power of ten. -/
def JsonNumber.layout : Layout where
  plain leading := decide (-5 ≤ leading) && decide (leading < 16)
  pointZero := true
  tie := .toEven

def JsonNumber.render : JsonNumber → String
  | .int n => toString n
  | .real x => JsonNumber.layout.render x

namespace Json

/-- A character inside a string: quotes, backslashes and controls are escaped. -/
def escapedChar (c : Char) : List Char :=
  if c = '"' then ['\\', '"']
  else if c = '\\' then ['\\', '\\']
  else if c = '\n' then ['\\', 'n']
  else if c = '\r' then ['\\', 'r']
  else if c = '\t' then ['\\', 't']
  else if c = '\x08' then ['\\', 'b']
  else if c = '\x0c' then ['\\', 'f']
  else if c.toNat < 0x10 then ['\\', 'u', '0', '0', '0'] ++ Text.hexDigits c.toNat
  else if c.toNat < 0x20 then ['\\', 'u', '0', '0'] ++ Text.hexDigits c.toNat
  else [c]

def renderString (s : String) : String :=
  String.ofList ('"' :: (s.toList.flatMap escapedChar ++ ['"']))

mutual

/-- Compact text of a value. -/
def render : Json → String
  | .null => "null"
  | .bool true => "true"
  | .bool false => "false"
  | .number n => n.render
  | .string s => renderString s
  | .array items => "[" ++ Text.join "," (renderItems items) ++ "]"
  | .object entries => "\x7b" ++ Text.join "," (renderEntries entries) ++ "\x7d"

def renderItems : List Json → List String
  | [] => []
  | v :: vs => render v :: renderItems vs

def renderEntries : List (String × Json) → List String
  | [] => []
  | (k, v) :: es => (renderString k ++ ":" ++ render v) :: renderEntries es

end

end Json

end SignedDocs
