import TableGraph.Json.Reader

/-!
# Well-formed values

`passValue` takes a value off the front of a text without reading it. It asks less than reading does:
the value has to be written by the grammar, but arrays and objects may be nested to any depth, a number
may be of any size, and an escape need not be that of a character.
-/

namespace TableGraph.Json

def passString : List Char → Option (List Char)
  | [] => none
  | '"' :: rest => some rest
  | '\\' :: 'u' :: a :: b :: c :: d :: rest =>
    if (hexValue4? a b c d).isSome then passString rest else none
  | '\\' :: c :: rest => if (unescape? c).isSome then passString rest else none
  | c :: rest => if c = '\\' || c.toNat < 32 then none else passString rest

def passKey (s : List Char) : Option (List Char) :=
  match skipSpace s with
  | '"' :: rest => do
    match skipSpace (← passString rest) with
    | ':' :: left => return left
    | _ => none
  | _ => none

def passScalar (s : List Char) : Option (List Char) :=
  match s with
  | 'n' :: 'u' :: 'l' :: 'l' :: rest => some rest
  | 't' :: 'r' :: 'u' :: 'e' :: rest => some rest
  | 'f' :: 'a' :: 'l' :: 's' :: 'e' :: rest => some rest
  | '"' :: rest => passString rest
  | _ => (readNumeral s).map (·.2)

/-- Pass over a value with arrays and objects nested at most so many levels deep. -/
def passWithin : Nat → List Char → Option (Unit × List Char)
  | 0, _ => none
  | levels + 1, s =>
    match skipSpace s with
    | '[' :: rest => do
      let (_, left) ← readBracketed (passWithin levels) ']' rest
      return ((), left)
    | '\x7b' :: rest => do
      let (_, left) ← readBracketed (fun s => passKey s >>= passWithin levels) '\x7d' rest
      return ((), left)
    | s => (passScalar s).map fun left => ((), left)

/-- Pass over a value. It is not nested deeper than its text is long. -/
def passValue (s : List Char) : Option (List Char) :=
  (passWithin (s.length + 1) s).map (·.2)

end TableGraph.Json
