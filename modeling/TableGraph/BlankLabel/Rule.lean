import TableGraph.Error
import TableGraph.BlankLabel.Notation

/-!
# Rules for blank-node labels

A `LabelRule` names the characters that a label may not start with and those it may not end with, each
as a class, which is a text that stands for a set of characters. What a class stands for is up to a
`ClassReader`; the one that is used where no other is given reads `Notation`.
`sanitize` makes a label of any text: it takes off what is not allowed at the ends, the mark `_:`
included, until nothing more comes off.
-/

namespace TableGraph

open BlankLabel (CharacterSet)

/-- What reads classes: from the text of a class, the set of characters that it stands for. -/
abbrev ClassReader := String → Option CharacterSet

/-- The characters that a label may neither start nor end with, as they are written and as sets. -/
structure LabelRule where
  notFirst : String
  notLast : String
  leading : CharacterSet
  trailing : CharacterSet
  deriving DecidableEq

namespace LabelRule

/-- The rule that two classes write. The one for the start is read first. -/
def ofTexts (notFirst notLast : String) (read : ClassReader := CharacterSet.ofText?) :
    Except TransformError LabelRule :=
  match read notFirst with
  | none => .error (.labelPattern .first)
  | some leading =>
    match read notLast with
    | none => .error (.labelPattern .last)
    | some trailing => .ok { notFirst, notLast, leading, trailing }

/-- What a label may not start with where nothing else is set. -/
def defaultNotFirst : String := "[-.\\x\x7b00B7\x7d\\x\x7b0300\x7d-\\x\x7b036F\x7d\\x\x7b203F\x7d\\x\x7b2040\x7d]"

def defaultNotLast : String := "[.]"

/-- The rule where nothing else is set. -/
def standard : LabelRule where
  notFirst := defaultNotFirst
  notLast := defaultNotLast
  leading :=
    [CharacterSet.single '.', .single '\u00B7', .range '\u0300' '\u036F', .single '\u203F',
      .single '\u2040'].foldl .union (.single '-')
  trailing := .union .empty (.single '.')

example : ofTexts defaultNotFirst defaultNotLast = .ok standard := by rfl

/-! ## Labels -/

/-- Text without the marks of blank nodes at its start. -/
def dropMarkers : List Char → List Char
  | '_' :: ':' :: rest => dropMarkers rest
  | s => s

/-- Take off, once each, the marks and the characters not allowed at the start, and those not allowed
at the end. -/
def strip (rule : LabelRule) (s : List Char) : List Char :=
  Text.dropEndWhile rule.trailing.contains ((dropMarkers s).dropWhile rule.leading.contains)

/-- Strip until nothing more comes off, at most so many times. -/
def stripAll (rule : LabelRule) : Nat → List Char → List Char
  | 0, s => s
  | times + 1, s =>
    let stripped := rule.strip s
    if stripped = s then s else stripAll rule times stripped

/-- The label that text makes. Every strip that takes something off makes the text shorter, so its
length bounds their number. -/
def sanitize (rule : LabelRule) (seed : String) : String :=
  let s := (Text.stripSpace seed).toList
  String.ofList (rule.stripAll s.length s)

end LabelRule

end TableGraph
