import SignedDocs.Text.EscapeTable
import SignedDocs.Text.Blank

/-!
Quoted texts, as messages show a path or a value: double quotes around, and a
backslash before quotes and backslashes. Tab, line feed, carriage return and NUL
are written with a letter or a digit; other characters that cannot be seen as
their code point in braces, in hexadecimal digits.
-/

namespace SignedDocs.Text

/-- Hexadecimal digits of a number, lower case. -/
def hexDigits (n : Nat) : List Char := Nat.toDigits 16 n

def isHidden (c : Char) : Bool := c.toNat < 0x20 || inRanges hiddenRanges c.toNat

def quotedChar (c : Char) : List Char :=
  if c = '"' then ['\\', '"']
  else if c = '\\' then ['\\', '\\']
  else if c = '\n' then ['\\', 'n']
  else if c = '\r' then ['\\', 'r']
  else if c = '\t' then ['\\', 't']
  else if c.toNat = 0 then ['\\', '0']
  else if isHidden c then ['\\', 'u', '{'] ++ hexDigits c.toNat ++ ['}']
  else [c]

def quoted (s : String) : String :=
  String.ofList ('"' :: (s.toList.flatMap quotedChar ++ ['"']))

/-- A quoted path of a file: apostrophes have a backslash too. -/
def quotedPath (s : String) : String :=
  String.ofList ('"' :: (s.toList.flatMap (fun c => if c = '\'' then ['\\', '\''] else quotedChar c)
    ++ ['"']))

end SignedDocs.Text
