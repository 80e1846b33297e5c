/-!
# Characters of IRIs

Which characters may stand unescaped in each component of an IRI. All sets are ASCII sets together
with `isExtended`, the characters beyond ASCII that IRIs admit anywhere, and, in queries alone, the
private-use characters.
-/

namespace TableGraph.Iri

/-- Characters beyond ASCII that may stand in every component. -/
def isExtended (c : Char) : Bool :=
  let n := c.toNat
  (0xA0 ≤ n && n ≤ 0xD7FF) || (0xF900 ≤ n && n ≤ 0xFDCF) || (0xFDF0 ≤ n && n ≤ 0xFFEF) ||
    (0x10000 ≤ n && n < 0xE0000 && n % 0x10000 ≤ 0xFFFD) || (0xE1000 ≤ n && n ≤ 0xEFFFD)

/-- Private-use characters, which queries admit. -/
def isPrivate (c : Char) : Bool :=
  let n := c.toNat
  (0xE000 ≤ n && n ≤ 0xF8FF) || (0xF0000 ≤ n && n ≤ 0xFFFFD) || (0x100000 ≤ n && n ≤ 0x10FFFD)

/-- The ASCII characters without a purpose of their own. -/
def isAsciiUnreserved (c : Char) : Bool :=
  c.isAlphanum || c == '-' || c == '.' || c == '_' || c == '~'

/-- The characters without a purpose of their own. -/
def isUnreserved (c : Char) : Bool :=
  isAsciiUnreserved c || isExtended c

/-- The delimiters that a component may give a meaning to. -/
def isSubDelim (c : Char) : Bool :=
  c == '!' || c == '$' || c == '&' || c == '\'' || c == '(' || c == ')' || c == '*' || c == '+' ||
    c == ',' || c == ';' || c == '='

def isHostChar (c : Char) : Bool :=
  isUnreserved c || isSubDelim c

def isUserInfoChar (c : Char) : Bool :=
  isHostChar c || c == ':'

/-- Characters of a path segment that cannot be taken for a scheme. -/
def isPlainSegmentChar (c : Char) : Bool :=
  isHostChar c || c == '@'

/-- Characters of a path, its slashes included. -/
def isPathChar (c : Char) : Bool :=
  isPlainSegmentChar c || c == ':' || c == '/'

def isFragmentChar (c : Char) : Bool :=
  isPathChar c || c == '?'

def isQueryChar (c : Char) : Bool :=
  isFragmentChar c || isPrivate c

/-- Characters of a scheme after its first letter. -/
def isSchemeChar (c : Char) : Bool :=
  c.isAlphanum || c == '+' || c == '-' || c == '.'

def isHexDigit (c : Char) : Bool :=
  c.isDigit || ('a' ≤ c && c ≤ 'f') || ('A' ≤ c && c ≤ 'F')

def endsAuthority (c : Char) : Bool :=
  c == '/' || c == '?' || c == '#'

def endsPath (c : Char) : Bool :=
  c == '?' || c == '#'

end TableGraph.Iri
