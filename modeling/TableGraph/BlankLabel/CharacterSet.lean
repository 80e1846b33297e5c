/-!
# Sets of characters

Ranges of characters, and what can be made of them: unions, intersections, differences and
complements. `contains` says which characters are in a set.
-/

namespace TableGraph.BlankLabel

/-- A set of characters, as it is made up. -/
inductive CharacterSet
  | empty
  | range (lo hi : Char)
  | union (a b : CharacterSet)
  | intersection (a b : CharacterSet)
  | difference (a b : CharacterSet)
  /-- The characters in exactly one of two sets. -/
  | symmetricDifference (a b : CharacterSet)
  | complement (a : CharacterSet)
  deriving DecidableEq, Repr

namespace CharacterSet

def contains : CharacterSet → Char → Bool
  | empty, _ => false
  | range lo hi, c => lo ≤ c && c ≤ hi
  | union a b, c => a.contains c || b.contains c
  | intersection a b, c => a.contains c && b.contains c
  | difference a b, c => a.contains c && !b.contains c
  | symmetricDifference a b, c => a.contains c != b.contains c
  | complement a, c => !a.contains c

def single (c : Char) : CharacterSet := range c c

def unionAll (sets : List CharacterSet) : CharacterSet :=
  sets.foldl union empty

end CharacterSet

end TableGraph.BlankLabel
