import TableGraph.Json.Basic
import TableGraph.Text

/-!
# Reading JSON

`Json.parse?` reads exactly one value, with white space around it. Arrays and objects may be nested 127
levels deep. A number without fraction and exponent that fits 64 bits is an integer, and any other is
a double; a number beyond the greatest double is refused, as is half of a surrogate pair. Each reading
function returns what it takes from the front of a text, with what is left.
-/

namespace TableGraph.Json

open Text (hexValue?)

/-- The white space that may stand between tokens. -/
def isSpace (c : Char) : Bool :=
  c == ' ' || c == '\n' || c == '\t' || c == '\r'

def skipSpace (s : List Char) : List Char :=
  s.dropWhile isSpace

/-! ## Strings -/

/-- The number that four hexadecimal digits write. -/
def hexValue4? (a b c d : Char) : Option Nat := do
  let a ← hexValue? a
  let b ← hexValue? b
  let c ← hexValue? c
  let d ← hexValue? d
  return ((a * 16 + b) * 16 + c) * 16 + d

/-- What a character stands for behind a backslash. -/
def unescape? (c : Char) : Option Char :=
  match c with
  | '"' => some '"'
  | '\\' => some '\\'
  | '/' => some '/'
  | 'b' => some '\x08'
  | 'f' => some '\x0c'
  | 'n' => some '\n'
  | 'r' => some '\r'
  | 't' => some '\t'
  | _ => none

/-- The character of a surrogate pair. -/
def ofSurrogates? (high low : Nat) : Option Char :=
  if 0xD800 ≤ high && high < 0xDC00 && 0xDC00 ≤ low && low < 0xE000 then
    some (Char.ofNat (0x10000 + (high - 0xD800) * 0x400 + (low - 0xDC00)))
  else none

/-- Read a string behind its opening quote. -/
def readString : List Char → Option (List Char × List Char)
  | [] => none
  | '"' :: rest => some ([], rest)
  | '\\' :: 'u' :: a :: b :: c :: d :: rest => do
    let n ← hexValue4? a b c d
    if 0xD800 ≤ n && n < 0xE000 then
      match rest with
      | '\\' :: 'u' :: a :: b :: c :: d :: rest =>
        let char ← ofSurrogates? n (← hexValue4? a b c d)
        let (more, left) ← readString rest
        return (char :: more, left)
      | _ => none
    else
      let (more, left) ← readString rest
      return (Char.ofNat n :: more, left)
  | '\\' :: c :: rest => do
    let char ← unescape? c
    let (more, left) ← readString rest
    return (char :: more, left)
  | c :: rest =>
    if c = '\\' || c.toNat < 32 then none
    else do
      let (more, left) ← readString rest
      return (c :: more, left)

/-! ## Numbers -/

def digitValue (c : Char) : Nat :=
  c.toNat - '0'.toNat

/-- Append decimal digits to a number while it fits 64 bits; the number, and how many digits it
took. -/
def appendDigits (n : Nat) : List Char → Nat × Nat
  | [] => (n, 0)
  | d :: rest =>
    let next := 10 * n + digitValue d
    if next < Nat.pow 2 64 then
      let (last, taken) := appendDigits next rest
      (last, taken + 1)
    else (n, 0)

/-- The digits of a number as they are written. -/
structure Numeral where
  negative : Bool
  whole : List Char
  fraction : Option (List Char)
  exponent : Option Int
  deriving DecidableEq, Repr

/-- Read the digits at the front, at least one. -/
def readDigits (s : List Char) : Option (List Char × List Char) :=
  let digits := s.takeWhile Char.isDigit
  if digits.isEmpty then none else some (digits, s.dropWhile Char.isDigit)

/-- The number that decimal digits write. -/
def ofDigits (digits : List Char) : Nat :=
  digits.foldl (fun n d => 10 * n + digitValue d) 0

/-- Read a fraction, if a point comes first. -/
def readFraction (s : List Char) : Option (Option (List Char) × List Char) :=
  match s with
  | '.' :: rest => do
    let (digits, left) ← readDigits rest
    return (some digits, left)
  | _ => some (none, s)

/-- Read an exponent, if its letter comes first. -/
def readExponent (s : List Char) : Option (Option Int × List Char) :=
  match s with
  | c :: rest =>
    if c = 'e' || c = 'E' then do
      let (negative, rest) :=
        match rest with
        | '-' :: rest => (true, rest)
        | '+' :: rest => (false, rest)
        | _ => (false, rest)
      let (digits, left) ← readDigits rest
      let n : Int := ofDigits digits
      return (some (if negative then -n else n), left)
    else some (none, s)
  | [] => some (none, s)

/-- Read the digits of a number. A zero at the front stands alone. -/
def readNumeral (s : List Char) : Option (Numeral × List Char) := do
  let (negative, s) :=
    match s with
    | '-' :: rest => (true, rest)
    | _ => (false, s)
  let (whole, s) ← readDigits s
  if whole.head? = some '0' && 1 < whole.length then none
  else
    let (fraction, s) ← readFraction s
    let (exponent, s) ← readExponent s
    return (⟨negative, whole, fraction, exponent⟩, s)

/-- The number that a numeral writes. As many digits count as fit 64 bits; of the others, those before
the point count as zeros. Minus zero is a double. -/
def Numeral.value? (n : Numeral) : Option Number :=
  let (digits, taken) := appendDigits 0 n.whole
  let dropped := n.whole.length - taken
  match n.fraction, n.exponent, dropped with
  | none, none, 0 =>
    if !n.negative then some (.int digits)
    else if 1 ≤ digits && digits ≤ Nat.pow 2 63 then some (.int (-digits))
    else (Binary64.ofDecimal true digits 0).map .float
  | fraction, exponent, dropped =>
    let (digits, places) := appendDigits digits (fraction.getD [])
    let power : Int := dropped - places + exponent.getD 0
    (Binary64.ofDecimal n.negative digits power).map .float

/-! ## Values -/

/-- Read items with commas between them, up to a closing character. The number bounds how many. -/
def readItems (item : List Char → Option (α × List Char)) (close : Char) :
    Nat → List Char → Option (List α × List Char)
  | 0, _ => none
  | bound + 1, s => do
    let (first, s) ← item s
    match skipSpace s with
    | c :: rest =>
      if c = close then some ([first], rest)
      else if c = ',' then
        let (more, left) ← readItems item close bound rest
        return (first :: more, left)
      else none
    | [] => none

/-- Read items in brackets, behind the opening one; there may be none. -/
def readBracketed (item : List Char → Option (α × List Char)) (close : Char) (s : List Char) :
    Option (List α × List Char) :=
  match skipSpace s with
  | c :: rest => if c = close then some ([], rest) else readItems item close s.length s
  | [] => none

def readKey (s : List Char) : Option (String × List Char) :=
  match skipSpace s with
  | '"' :: rest => do
    let (key, rest) ← readString rest
    match skipSpace rest with
    | ':' :: left => return (String.ofList key, left)
    | _ => none
  | _ => none

def readEntry (value : List Char → Option (Json × List Char)) (s : List Char) :
    Option ((String × Json) × List Char) := do
  let (key, rest) ← readKey s
  let (v, left) ← value rest
  return ((key, v), left)

def readScalar (s : List Char) : Option (Json × List Char) :=
  match s with
  | 'n' :: 'u' :: 'l' :: 'l' :: rest => some (.null, rest)
  | 't' :: 'r' :: 'u' :: 'e' :: rest => some (.bool true, rest)
  | 'f' :: 'a' :: 'l' :: 's' :: 'e' :: rest => some (.bool false, rest)
  | '"' :: rest => do
    let (chars, left) ← readString rest
    return (.string (String.ofList chars), left)
  | _ => do
    let (numeral, left) ← readNumeral s
    return (.number (← numeral.value?), left)

/-- Read a value with arrays and objects nested at most so many levels deep. -/
def readValue : Nat → List Char → Option (Json × List Char)
  | 0, s =>
    match skipSpace s with
    | '[' :: _ | '\x7b' :: _ => none
    | s => readScalar s
  | levels + 1, s =>
    match skipSpace s with
    | '[' :: rest => do
      let (items, left) ← readBracketed (readValue levels) ']' rest
      return (.array items, left)
    | '\x7b' :: rest => do
      let (entries, left) ← readBracketed (readEntry (readValue levels)) '\x7d' rest
      return (.object (ofEntries entries), left)
    | s => readScalar s

/-- How many levels deep arrays and objects may be nested in a text. -/
def maxLevels : Nat := 127

def parse? (s : String) : Option Json :=
  match readValue maxLevels s.toList with
  | some (v, left) => if (skipSpace left).isEmpty then some v else none
  | none => none

end TableGraph.Json
