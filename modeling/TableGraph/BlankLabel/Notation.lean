import TableGraph.Text
import TableGraph.BlankLabel.CharacterSet

/-!
# How sets of characters are written

A set is written as alternatives with bars between them, and an alternative is a character or a class
in brackets. A class lists its members: characters, ranges, classes within it, and named classes such
as `[:digit:]`; a caret in front takes all other characters instead. Between lists of members `&&`
takes what both have, `--` what only the first has, and `~~` what one of them has. A backslash takes a
sign for itself, and `\x`, `\u` and `\U` bring a character by its number.
-/

namespace TableGraph.BlankLabel.CharacterSet

/-! ## Characters -/

/-- The character whose number hexadecimal digits write. -/
def ofHex? (digits : List Char) : Option Char := do
  if digits.isEmpty then none
  else
    let n ← digits.foldlM (fun n d => (Text.hexValue? d).map (16 * n + ·)) 0
    if n.isValidChar then some (Char.ofNat n) else none

/-- Read the number of a character: in braces, or of so many digits. -/
def readNumber (digits : Nat) (s : List Char) : Option (Char × List Char) :=
  match s with
  | '\x7b' :: rest =>
    match Text.cutAt '\x7d' rest with
    | some (number, left) => (ofHex? number).map fun c => (c, left)
    | none => none
  | s => if s.length < digits then none else (ofHex? (s.take digits)).map fun c => (c, s.drop digits)

/-- Read a character behind a backslash: by its number, by a letter, or a sign that stands for
itself. -/
def readEscape (s : List Char) : Option (Char × List Char) :=
  match s with
  | [] => none
  | c :: rest =>
    match c with
    | 'x' => readNumber 2 rest
    | 'u' => readNumber 4 rest
    | 'U' => readNumber 8 rest
    | 'a' => some ('\x07', rest)
    | 'f' => some ('\x0c', rest)
    | 'n' => some ('\n', rest)
    | 'r' => some ('\r', rest)
    | 't' => some ('\t', rest)
    | 'v' => some ('\x0b', rest)
    | c =>
      if c.isAlphanum || 127 < c.toNat || c = '<' || c = '>' then none else some (c, rest)

/-! ## Classes -/

def ofRanges (ranges : List (Char × Char)) : CharacterSet :=
  unionAll (ranges.map fun r => range r.1 r.2)

/-- The classes that have a name. All of them are ASCII. -/
def named? (name : String) : Option CharacterSet :=
  match name with
  | "alnum" => some (ofRanges [('0', '9'), ('A', 'Z'), ('a', 'z')])
  | "alpha" => some (ofRanges [('A', 'Z'), ('a', 'z')])
  | "ascii" => some (range '\x00' '\x7f')
  | "blank" => some (ofRanges [('\t', '\t'), (' ', ' ')])
  | "cntrl" => some (ofRanges [('\x00', '\x1f'), ('\x7f', '\x7f')])
  | "digit" => some (range '0' '9')
  | "graph" => some (range '!' '~')
  | "lower" => some (range 'a' 'z')
  | "print" => some (range ' ' '~')
  | "punct" => some (ofRanges [('!', '/'), (':', '@'), ('[', '\x60'), ('\x7b', '~')])
  | "space" => some (ofRanges [('\t', '\r'), (' ', ' ')])
  | "upper" => some (range 'A' 'Z')
  | "word" => some (ofRanges [('0', '9'), ('A', 'Z'), ('_', '_'), ('a', 'z')])
  | "xdigit" => some (ofRanges [('0', '9'), ('A', 'F'), ('a', 'f')])
  | _ => none

/-- Read a named class behind its opening bracket. -/
def readNamed (s : List Char) : Option (CharacterSet × List Char) :=
  match s with
  | ':' :: rest =>
    let negated := rest.head? = some '^'
    match Text.cutAt ':' (if negated then rest.tail else rest) with
    | some (name, ']' :: left) =>
      (named? (String.ofList name)).map fun set =>
        (if negated then complement set else set, left)
    | _ => none
  | _ => none

def readCharacter (s : List Char) : Option (Char × List Char) :=
  match s with
  | [] => none
  | '\\' :: rest => readEscape rest
  | c :: rest => some (c, rest)

/-- Read a member of a class: a character, or a range where a hyphen follows that neither ends the
class nor starts a sign. -/
def readMember (s : List Char) : Option (CharacterSet × List Char) := do
  let (lo, left) ← readCharacter s
  match left with
  | '-' :: c :: rest =>
    if c = ']' || c = '-' then return (single lo, left)
    else
      let (hi, left) ← readCharacter (c :: rest)
      if hi < lo then none else return (range lo hi, left)
  | _ => return (single lo, left)

/-- What stands at the start of a class: whether it is negated, and hyphens or else a closing bracket
that are members of it, with what follows. -/
def readOpening (s : List Char) : Bool × CharacterSet × List Char :=
  let negated := s.head? = some '^'
  let s := if negated then s.tail else s
  match s with
  | ']' :: rest => (negated, single ']', rest)
  | _ =>
    if s.head? = some '-' then (negated, single '-', s.dropWhile (· == '-')) else (negated, empty, s)

/-- Read the rest of a class, up to its closing bracket: `members` came last, and `join` takes them
together with what came before. The number bounds how many steps it takes. -/
def readMembers (join : CharacterSet → CharacterSet) (members : CharacterSet) :
    Nat → List Char → Option (CharacterSet × List Char)
  | 0, _ => none
  | bound + 1, s =>
    match s with
    | [] => none
    | ']' :: rest => some (join members, rest)
    | '&' :: '&' :: rest => readMembers (intersection (join members)) empty bound rest
    | '-' :: '-' :: rest => readMembers (difference (join members)) empty bound rest
    | '~' :: '~' :: rest => readMembers (symmetricDifference (join members)) empty bound rest
    | '[' :: rest =>
      match readNamed rest with
      | some (set, left) => readMembers join (union members set) bound left
      | none => do
        let (negated, first, rest) := readOpening rest
        let (set, left) ← readMembers id first bound rest
        readMembers join (union members (if negated then complement set else set)) bound left
    | s => do
      let (set, left) ← readMember s
      readMembers join (union members set) bound left

/-- Read a class behind its opening bracket. Every step takes a character at least. -/
def readClass (s : List Char) : Option (CharacterSet × List Char) := do
  let (negated, first, rest) := readOpening s
  let (set, left) ← readMembers id first (s.length + 1) rest
  return (if negated then complement set else set, left)

/-! ## Alternatives -/

/-- Signs with a meaning of their own outside classes. -/
def isSign (c : Char) : Bool :=
  ['.', '+', '*', '?', '(', ')', '|', '[', '\x7b', '^', '$'].contains c

def readAlternative (s : List Char) : Option (CharacterSet × List Char) :=
  match s with
  | [] => none
  | '[' :: rest => readClass rest
  | '\\' :: rest => (readEscape rest).map fun (c, left) => (single c, left)
  | '.' :: rest => some (complement (single '\n'), rest)
  | c :: rest => if isSign c then none else some (single c, rest)

/-- Read alternatives with bars between them. The number bounds how many. -/
def readAlternatives : Nat → List Char → Option CharacterSet
  | 0, _ => none
  | bound + 1, s => do
    let (first, left) ← readAlternative s
    match left with
    | [] => return first
    | '|' :: rest => return union first (← readAlternatives bound rest)
    | _ => none

/-- The set that a text writes, if it writes one. The empty text writes the empty set. -/
def ofText? (s : String) : Option CharacterSet :=
  if s.isEmpty then some empty else readAlternatives s.toList.length s.toList

end TableGraph.BlankLabel.CharacterSet
