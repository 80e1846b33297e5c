import TableGraph.Text
import TableGraph.Iri.Basic
import TableGraph.Iri.Characters

/-!
# Bracketed hosts

What may stand between the brackets of a host: an IPv6 address, or an address of a later version that
names it. `isAddress` counts 16-bit groups, a dotted address at the end being two: there are eight of
them, or at most seven around one `::`.
-/

namespace TableGraph.Iri

open Text (pieces)

/-! ## IPv6 -/

/-- One to four hexadecimal digits. -/
def isGroup (s : List Char) : Bool :=
  1 ≤ s.length && s.length ≤ 4 && s.all isHexDigit

/-- A number below 256 in decimal, without leading zeros. -/
def isOctet (s : List Char) : Bool :=
  1 ≤ s.length && s.length ≤ 3 && s.all Char.isDigit && (s.length == 1 || s.head? != some '0') &&
    s.foldl (fun n c => 10 * n + (c.toNat - '0'.toNat)) 0 < 256

/-- Four octets between dots. -/
def isDotted (s : List Char) : Bool :=
  let octets := pieces '.' s
  octets.length == 4 && octets.all isOctet

/-- How many groups a list of pieces makes, the last being a dotted address if `dotted` allows it. -/
def countGroups (dotted : Bool) : List (List Char) → Option Nat
  | [] => some 0
  | [last] => if isGroup last then some 1 else if dotted && isDotted last then some 2 else none
  | group :: rest => if isGroup group then (countGroups dotted rest).map (· + 1) else none

/-- How many groups stand between the colons of a text; none in the empty text. -/
def groups (dotted : Bool) (s : List Char) : Option Nat :=
  if s.isEmpty then some 0 else countGroups dotted (pieces ':' s)

/-- The text before and after the first double colon. -/
def cutAtDoubleColon : List Char → Option (List Char × List Char)
  | [] => none
  | c :: rest =>
    if c = ':' && rest.head? = some ':' then some ([], rest.tail)
    else (cutAtDoubleColon rest).map fun (before, after) => (c :: before, after)

/-- Whether a text is an IPv6 address. -/
def isAddress (s : List Char) : Bool :=
  match cutAtDoubleColon s with
  | none => groups true s == some 8
  | some (before, after) =>
    match groups false before, groups true after with
    | some m, some n => m + n ≤ 7
    | _, _ => false

/-! ## Later versions -/

/-- Characters of an address of a later version. -/
def isFutureChar (c : Char) : Bool :=
  isAsciiUnreserved c || isSubDelim c || c == ':'

/-- What is wrong with `version . address`, if anything: the version has hexadecimal digits, one at
least, and the address is not empty. A missing character is reported as the bracket in its place. -/
def futureFault (s : List Char) : Option Fault :=
  match s.dropWhile isHexDigit with
  | [] => some (.hostCharacter ']')
  | '.' :: address =>
    if (s.takeWhile isHexDigit).isEmpty then some (.hostCharacter (address.headD ']'))
    else if address.isEmpty then some (.hostCharacter ']')
    else (address.find? fun c => !isFutureChar c).map .hostCharacter
  | c :: _ => some (.hostCharacter c)

/-- What is wrong with the text between the brackets of a host, if anything. -/
def literalFault (s : List Char) : Option Fault :=
  match s with
  | 'v' :: rest | 'V' :: rest => futureFault rest
  | _ => if isAddress s then none else some .hostAddress

end TableGraph.Iri
