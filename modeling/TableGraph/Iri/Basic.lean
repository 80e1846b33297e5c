/-!
# IRIs and their components

An IRI reference is an IRI or a relative reference, and both end in the same components, a `Tail`:
authority, path, query and fragment, each kept as it was written. `text` puts the components together
again with their delimiters. A `Fault` says why a text is no IRI.
-/

namespace TableGraph

namespace Iri

/-- The authority component: who, where and at which port. -/
structure Authority where
  userInfo : Option (List Char)
  host : List Char
  port : Option (List Char)
  deriving DecidableEq, Repr

/-- What follows the scheme of an IRI; alone, a relative reference. -/
structure Tail where
  authority : Option Authority
  path : List Char
  query : Option (List Char)
  fragment : Option (List Char)
  deriving DecidableEq, Repr

/-- Why a text is not an IRI, or a reference not resolvable. -/
inductive Fault
  /-- There is no scheme where one is needed. -/
  | noScheme
  /-- A character that may not stand in its component. -/
  | codePoint (c : Char)
  /-- A percent sign that two hexadecimal digits do not follow, with what follows it instead. -/
  | percent (found : List Char)
  /-- A character that may not stand in a bracketed host, or after it. -/
  | hostCharacter (c : Char)
  /-- A bracketed host that is no IPv6 address. -/
  | hostAddress
  /-- A character of a port that is no digit. -/
  | portCharacter (c : Char)
  /-- A path that would be read as an authority. -/
  | pathStart
  deriving DecidableEq, Repr

def Fault.message : Fault → String
  | .noScheme => "No scheme found in an absolute IRI"
  | .codePoint c => "Invalid IRI code point '" ++ c.toString ++ "'"
  | .percent found => "Invalid IRI percent encoding '%" ++ String.ofList found ++ "'"
  | .hostCharacter c => "Invalid character '" ++ c.toString ++ "' in host"
  | .hostAddress => "Invalid host IP (invalid IPv6 address syntax)"
  | .portCharacter c => "Invalid character '" ++ c.toString ++ "'"
  | .pathStart => "An IRI path is not allowed to start with //"

/-! ## Writing components -/

/-- A component behind its sign; nothing if it is absent. -/
def marked (mark : Char) : Option (List Char) → List Char
  | some part => mark :: part
  | none => []

/-- User information with its at sign; nothing if it is absent. -/
def userInfoChars : Option (List Char) → List Char
  | some part => part ++ ['@']
  | none => []

/-- An authority as it stands after its two slashes. -/
def Authority.chars (a : Authority) : List Char :=
  userInfoChars a.userInfo ++ a.host ++ marked ':' a.port

/-- An authority with its two slashes; nothing if it is absent. -/
def authorityChars : Option Authority → List Char
  | some a => '/' :: '/' :: a.chars
  | none => []

/-- A tail with its delimiters. -/
def Tail.chars (t : Tail) : List Char :=
  authorityChars t.authority ++ t.path ++ marked '?' t.query ++ marked '#' t.fragment

end Iri

structure Iri where
  scheme : List Char
  tail : Iri.Tail
  deriving DecidableEq, Repr

/-- An IRI reference: an IRI, or a reference relative to one. -/
inductive Iri.Reference
  | absolute (iri : Iri)
  | relative (tail : Iri.Tail)
  deriving DecidableEq, Repr

def Iri.chars (i : Iri) : List Char :=
  i.scheme ++ ':' :: i.tail.chars

def Iri.text (i : Iri) : String :=
  String.ofList i.chars

def Iri.Reference.chars : Iri.Reference → List Char
  | .absolute iri => iri.chars
  | .relative tail => tail.chars

def Iri.Reference.text (r : Iri.Reference) : String :=
  String.ofList r.chars

end TableGraph
