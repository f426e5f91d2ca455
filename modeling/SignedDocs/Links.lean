import SignedDocs.Table
import SignedDocs.Text.Pattern

/-!
Documentation links and their aliases.

* `resolve?`: the address under a name, or under the name an alias stands for; the
  links come first, and an alias of an alias stands for nothing.
* `names`: all names, longest first.
* `malformed`: the links that are no web addresses.
-/

namespace SignedDocs

structure Links where
  addresses : Table String
  aliases : Table String

namespace Links

def empty : Links := ⟨Table.empty, Table.empty⟩

instance : Inhabited Links := ⟨empty⟩

/-- The address of a link. -/
def address? (l : Links) (name : String) : Option String := l.addresses.get? name

/-- The link that an alias stands for. -/
def target? (l : Links) (alias_ : String) : Option String := l.aliases.get? alias_

def resolve? (l : Links) (name : String) : Option String :=
  (l.address? name).or ((l.target? name).bind l.address?)

/-- At least as many bytes. -/
def noShorter (a b : String) : Bool := decide (b.utf8ByteSize ≤ a.utf8ByteSize)

/-- Names of links and aliases, longest first; among names of one length links come
first, each in the order of declaration. -/
def names (l : Links) : List String := (l.addresses.keys ++ l.aliases.keys).mergeSort noShorter

/-- The form of a web address. -/
def webAddress : String := "^https?://[^\\s/$.?#][^\\s]*$"

/-- Names of the links whose address does not match a pattern. -/
def notMatching (l : Links) (pattern : String) : Except Pattern.Fault (List String) := do
  let p ← Pattern.ofString pattern
  pure ((l.addresses.entries.filter fun e => !p.occursIn e.2).map Prod.fst)

/-- Names of the links that are no web addresses. -/
def malformed (l : Links) : Except Pattern.Fault (List String) := l.notMatching webAddress

/-- Aliases with the names they stand for, where these are no links. -/
def dangling (l : Links) : List (String × String) :=
  l.aliases.entries.filter fun e => !l.addresses.contains e.2

end Links

end SignedDocs
