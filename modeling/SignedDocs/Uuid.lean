import SignedDocs.Text.Blank
import SignedDocs.Text.Hex

/-!
Identifiers of 128 bits.

* Text forms that are read: groups of 8, 4, 4, 4 and 12 hexadecimal digits with
  hyphens between them, bare, in braces or after `urn:uuid:` (in any case), and 32
  digits alone.
* `hyphenated`: the grouped form in lower case; `simple`: the 32 digits.
* `version`: the digit that opens the third group.
-/

namespace SignedDocs

structure Uuid where
  bits : BitVec 128
deriving DecidableEq, Repr

namespace Uuid

/-! ## Text -/

/-- The 32 digits, the most significant first. -/
def digits (id : Uuid) : List Nat := Text.toHex 32 id.bits.toNat

def digitChars (id : Uuid) : List Char := id.digits.map Text.hexDigit

/-- Lengths of the groups. -/
def groupLengths : List Nat := [8, 4, 4, 4, 12]

/-- Consecutive pieces of the given lengths. -/
def chunks {α : Type} : List Nat → List α → List (List α)
  | [], _ => []
  | n :: ns, as => as.take n :: chunks ns (as.drop n)

/-- The 32 digits without separators. -/
def simple (id : Uuid) : String := String.ofList id.digitChars

/-- The groups with hyphens between them. -/
def hyphenated (id : Uuid) : String :=
  String.ofList (List.intercalate ['-'] (chunks groupLengths id.digitChars))

/-- Which layout the other bits follow. -/
def version (id : Uuid) : Nat := id.bits.toNat / Nat.pow 2 76 % 16

/-- Diagnostic notation of the tagged byte string. -/
def cbor (id : Uuid) : String := "37(h'" ++ id.simple ++ "')"

/-! ## Reading -/

/-- Why a text is no identifier; places and lengths count bytes of the text at fault. -/
inductive Fault where
  | length (found : Nat)
  | character (found : Char) (index : Nat)
  | groupCount (found : Nat)
  | groupLength (group expected found : Nat)
deriving DecidableEq, Repr

def Fault.message : Fault → String
  | .length n => "invalid length: found " ++ toString n
  | .character c i => "invalid character: found `" ++ String.ofList [c] ++ "` at " ++ toString i
  | .groupCount n => "invalid group count: expected 5, found " ++ toString n
  | .groupLength g e n =>
    "invalid group length in group " ++ toString g ++ ": expected " ++ toString e ++ ", found " ++
      toString n

/-- The mark that may stand before the groups. -/
def scheme : List Char := ['u', 'r', 'n', ':', 'u', 'u', 'i', 'd', ':']

/-- The inner part of a text, if it has braces around it or the scheme before it,
and the number of bytes before that part. -/
def unwrap (cs : List Char) : Option (List Char × Nat) :=
  match cs with
  | '{' :: rest => if rest.getLast? = some '}' then some (rest.dropLast, 1) else none
  | _ => if (cs.take 9).map Char.toLower = scheme then some (cs.drop 9, 9) else none

def ofDigits (ds : List Nat) : Uuid := ⟨BitVec.ofNat 128 (Text.ofHex ds)⟩

/-- Digits alone. -/
def ofSimple? (cs : List Char) : Option Uuid :=
  if cs.length = 32 then (cs.mapM Text.hexValue?).map ofDigits else none

/-- Digits in groups. -/
def ofGroups? (cs : List Char) : Option Uuid :=
  let groups := cs.splitOn '-'
  if groups.map List.length = groupLengths then (groups.flatten.mapM Text.hexValue?).map ofDigits
  else none

/-- First character that is neither a digit nor a hyphen, with its byte index. -/
def foreign? : Nat → List Char → Option (Char × Nat)
  | _, [] => none
  | i, c :: cs =>
    if c = '-' ∨ (Text.hexValue? c).isSome then foreign? (i + c.utf8Size) cs else some (c, i)

/-- Indices of the hyphens. -/
def hyphens (cs : List Char) : List Nat := cs.zipIdx.filterMap fun e => if e.1 = '-' then some e.2 else none

/-- First of the groups that ends at the wrong place. -/
def badGroup? : Nat → List Nat → List Nat → Nat → Option Fault
  | group, n :: ns, h :: hs, start =>
    if h = start + n then badGroup? (group + 1) ns hs (start + n + 1)
    else some (.groupLength group n (h - start))
  | _, _, _, _ => none

/-- Bytes of the grouped form. -/
def groupedLength : Nat := 36

/-- The text at fault: what is inside braces or after the scheme if that has the length of the
grouped form, else the whole. -/
def atFault (s : String) : String :=
  match (unwrap s.toList).map (String.ofList ·.1) with
  | some body => if body.utf8ByteSize = groupedLength then body else s
  | none => s

/-- What is wrong with a text that has none of the forms. -/
def diagnose (s : String) : Fault :=
  let cs := s.toList
  let wrapped := unwrap cs
  let (body, offset) := wrapped.getD (cs, 0)
  match foreign? offset body with
  | some (c, i) => .character c i
  | none =>
    let hs := hyphens body
    if hs.isEmpty && wrapped.isNone then .length s.utf8ByteSize
    else if hs.length ≠ 4 then .groupCount (hs.length + 1)
    else (badGroup? 0 groupLengths hs 0).getD (.groupLength 4 12 (s.utf8ByteSize - 24))

/-- The identifier a text stands for. -/
def parse? (s : String) : Option Uuid :=
  let cs := s.toList
  match unwrap cs with
  | some (body, _) => ofGroups? body
  | none => (ofSimple? cs).or (ofGroups? cs)

/-- Longest text of an identifier, in bytes. -/
def longest : Nat := 45

def parse (s : String) : Except Fault Uuid :=
  match parse? s with
  | some id => .ok id
  | none =>
    if s.utf8ByteSize = 0 ∨ longest < s.utf8ByteSize then .error (.length s.utf8ByteSize)
    else .error (diagnose (atFault s))

/-- Why a text is no identifier of a base type. -/
inductive Unfit where
  | malformed (text : String) (fault : Fault)
  | otherVersion (text : String) (version : Nat)
deriving DecidableEq, Repr

def Unfit.message : Unfit → String
  | .malformed s fault => "`" ++ s ++ "` is not a valid UUID: " ++ fault.message
  | .otherVersion s v =>
    "`" ++ s ++ "` is a version " ++ toString v ++ " UUID, expected version 4"

/-- An identifier of any version. -/
def read (s : String) : Except Unfit Uuid := (parse s).mapError (.malformed s)

/-- An identifier of version 4. -/
def readVersion4 (s : String) : Except Unfit Uuid := do
  let id ← read s
  if id.version = 4 then pure id else .error (.otherVersion s id.version)

end Uuid

end SignedDocs
