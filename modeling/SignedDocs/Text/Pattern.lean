import SignedDocs.Text.Blank

/-!
Patterns of texts.

* `Pattern.ends`: what may be left of a text after a match that begins at its start.
* `Pattern.occursIn`: some part of a text matches.
* `Pattern.ofString`: literals, a point for any character but a line feed, sets in
  brackets, `\s` for blanks, groups, alternatives, `?`, `*`, `+`, and the anchors
  `^` and `$`, which hold at the ends of the whole text.
-/

namespace SignedDocs

/-! ## Matching -/

inductive SetItem where
  | range (first last : Char)
  | blank
  | visible
deriving DecidableEq, Repr

def SetItem.contains (c : Char) : SetItem → Bool
  | .range first last => decide (first ≤ c) && decide (c ≤ last)
  | .blank => Text.isBlank c
  | .visible => !Text.isBlank c

/-- Characters that are among the items, or that are not. -/
structure CharSet where
  negated : Bool
  items : List SetItem
deriving DecidableEq, Repr

def CharSet.contains (s : CharSet) (c : Char) : Bool :=
  s.negated != s.items.any (·.contains c)

inductive Pattern where
  | empty
  | start
  | finish
  | one (set : CharSet)
  | seq (p q : Pattern)
  | alt (p q : Pattern)
  | star (p : Pattern)
deriving DecidableEq, Repr

/-- A place in a text: whether something stands before it, and what follows. -/
structure Cursor where
  moved : Bool
  rest : List Char
deriving DecidableEq, Repr

/-- Places reached by any number of steps that each take a character. -/
def iterate (step : Cursor → List Cursor) : Nat → Cursor → List Cursor
  | 0, c => [c]
  | fuel + 1, c =>
    c :: ((step c).filter fun d => decide (d.rest.length < c.rest.length)).flatMap (iterate step fuel)

namespace Pattern

/-- Places where a match that begins at `c` may end. -/
def ends : Pattern → Cursor → List Cursor
  | .empty, c => [c]
  | .start, c => if c.moved then [] else [c]
  | .finish, c => if c.rest.isEmpty then [c] else []
  | .one set, c =>
    match c.rest with
    | a :: rest => if set.contains a then [⟨true, rest⟩] else []
    | [] => []
  | .seq p q, c => (p.ends c).flatMap q.ends
  | .alt p q, c => p.ends c ++ q.ends c
  | .star p, c => iterate p.ends c.rest.length c

/-- A match begins at `c` or at a later place. -/
def occursAt (p : Pattern) : Bool → List Char → Bool
  | moved, [] => !(p.ends ⟨moved, []⟩).isEmpty
  | moved, c :: rest => !(p.ends ⟨moved, c :: rest⟩).isEmpty || occursAt p true rest

def occursIn (p : Pattern) (s : String) : Bool := p.occursAt false s.toList

/-! ## Reading -/

/-- Why a text is no pattern. -/
inductive Fault where
  | unclosedGroup
  | unopenedGroup
  | unclosedSet
  | nothingToRepeat
  | badEscape
  | badRange
  | unsupported (c : Char)
deriving DecidableEq, Repr

def Fault.message : Fault → String
  | .unclosedGroup => "unclosed group"
  | .unopenedGroup => "unopened group"
  | .unclosedSet => "unclosed character class"
  | .nothingToRepeat => "repetition operator missing expression"
  | .badEscape => "unrecognized escape sequence"
  | .badRange => "invalid character class range"
  | .unsupported c => "unsupported character " ++ String.ofList [c]

inductive Token where
  | atom (p : Pattern)
  | opening
  | closing
  | bar
  | optional
  | many
  | some
deriving DecidableEq, Repr

/-- Characters that stand for themselves after a backslash. -/
def isMark (c : Char) : Bool := "\\.+*?()|[]\x7b\x7d^$#&-~/".toList.contains c

/-- What a backslash and a character stand for. -/
def escaped (c : Char) : Except Fault SetItem :=
  if c = 's' then .ok .blank
  else if c = 'S' then .ok .visible
  else if c = 'n' then .ok (.range '\n' '\n')
  else if c = 'r' then .ok (.range '\r' '\r')
  else if c = 't' then .ok (.range '\t' '\t')
  else if isMark c then .ok (.range c c)
  else .error .badEscape

/-- Items of a set up to its bracket; a hyphen between two characters is a range. -/
def setItems : Nat → List Char → Except Fault (List SetItem × List Char)
  | 0, _ => .error .unclosedSet
  | fuel + 1, cs =>
    match cs with
    | [] => .error .unclosedSet
    | ']' :: rest => .ok ([], rest)
    | '[' :: _ => .error (.unsupported '[')
    | '\\' :: c :: rest => do
      let item ← escaped c
      let (items, rest) ← setItems fuel rest
      pure (item :: items, rest)
    | a :: '-' :: b :: rest =>
      if b = ']' then do
        let (items, rest) ← setItems fuel (b :: rest)
        pure (.range a a :: .range '-' '-' :: items, rest)
      else if b < a then .error .badRange
      else do
        let (items, rest) ← setItems fuel rest
        pure (.range a b :: items, rest)
    | a :: rest => do
      let (items, rest) ← setItems fuel rest
      pure (.range a a :: items, rest)

/-- A set after its opening bracket; a bracket at the start belongs to it. -/
def setBody (cs : List Char) : Except Fault (CharSet × List Char) :=
  let (negated, cs) := match cs with
    | '^' :: rest => (true, rest)
    | rest => (false, rest)
  match cs with
  | ']' :: rest => do
    let (items, rest) ← setItems (rest.length + 1) rest
    pure (⟨negated, .range ']' ']' :: items⟩, rest)
  | rest => do
    let (items, rest) ← setItems (rest.length + 1) rest
    pure (⟨negated, items⟩, rest)

def literal (c : Char) : Pattern := .one ⟨false, [.range c c]⟩

/-- Tokens of a pattern; each takes a character at least. -/
def tokens : Nat → List Char → Except Fault (List Token)
  | 0, _ => .ok []
  | fuel + 1, cs =>
    match cs with
    | [] => .ok []
    | '(' :: rest => do pure (.opening :: (← tokens fuel rest))
    | ')' :: rest => do pure (.closing :: (← tokens fuel rest))
    | '|' :: rest => do pure (.bar :: (← tokens fuel rest))
    | '?' :: rest => do pure (.optional :: (← tokens fuel rest))
    | '*' :: rest => do pure (.many :: (← tokens fuel rest))
    | '+' :: rest => do pure (.some :: (← tokens fuel rest))
    | '^' :: rest => do pure (.atom .start :: (← tokens fuel rest))
    | '$' :: rest => do pure (.atom .finish :: (← tokens fuel rest))
    | '.' :: rest => do pure (.atom (.one ⟨true, [.range '\n' '\n']⟩) :: (← tokens fuel rest))
    | '[' :: rest => do
      let (set, rest) ← setBody rest
      pure (.atom (.one set) :: (← tokens fuel rest))
    | '\\' :: c :: rest => do
      let item ← escaped c
      pure (.atom (.one ⟨false, [item]⟩) :: (← tokens fuel rest))
    | '\\' :: [] => .error .badEscape
    | '{' :: _ => .error (.unsupported '{')
    | c :: rest => do pure (.atom (literal c) :: (← tokens fuel rest))

/-- An open group: alternatives so far and the parts of the current one, last first. -/
structure Frame where
  alternatives : List Pattern
  parts : List Pattern

namespace Frame

def empty : Frame := ⟨[], []⟩

/-- The parts one after the other. -/
def sequence (f : Frame) : Pattern :=
  match f.parts with
  | [] => .empty
  | p :: ps => ps.foldl (fun q p => .seq p q) p

def pattern (f : Frame) : Pattern := f.alternatives.foldr .alt f.sequence

def push (f : Frame) (p : Pattern) : Frame := { f with parts := p :: f.parts }

/-- The last part replaced. -/
def repeatLast (f : Frame) (r : Pattern → Pattern) : Except Fault Frame :=
  match f.parts with
  | [] => .error .nothingToRepeat
  | p :: ps => .ok { f with parts := r p :: ps }

end Frame

/-- The pattern of tokens, with the innermost open group and those around it. -/
def build : Frame → List Frame → List Token → Except Fault Pattern
  | f, [], [] => .ok f.pattern
  | _, _ :: _, [] => .error .unclosedGroup
  | f, outer, .atom p :: ts => build (f.push p) outer ts
  | f, outer, .opening :: ts => build .empty (f :: outer) ts
  | _, [], .closing :: _ => .error .unopenedGroup
  | f, g :: outer, .closing :: ts => build (g.push f.pattern) outer ts
  | f, outer, .bar :: ts => build ⟨f.alternatives ++ [f.sequence], []⟩ outer ts
  | f, outer, .optional :: ts => do build (← f.repeatLast fun p => .alt p .empty) outer ts
  | f, outer, .many :: ts => do build (← f.repeatLast .star) outer ts
  | f, outer, .some :: ts => do build (← f.repeatLast fun p => .seq p (.star p)) outer ts

def ofString (s : String) : Except Fault Pattern := do
  let ts ← tokens (s.length + 1) s.toList
  build .empty [] ts

end Pattern

end SignedDocs
