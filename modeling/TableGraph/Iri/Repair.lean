import TableGraph.Iri.Reader

/-!
# Making a reference out of any text

`repair` turns text into an IRI reference: what can never stand in one becomes an underscore at once,
and then ever more delimiters do, pass by pass, until the text is a reference. Underscores in a row
are written as one.
-/

namespace TableGraph.Iri

open Unicode (Category category isBlankFormat)
open Text (underscoreRuns collapseUnderscores)

def isReference (s : List Char) : Bool :=
  match Reference.read s with
  | .ok _ => true
  | .error _ => false

/-- The ASCII characters, apart from the blank ones, that no IRI contains. -/
def isNeverAllowed (c : Char) : Bool :=
  c == '<' || c == '>' || c == '"' || c == '\x7b' || c == '\x7d' || c == '|' || c == '\\' ||
    c == '^' || c == '\x60'

/-- Letters, numbers and the four marks that need no escaping. -/
def isWordChar (c : Char) : Bool :=
  category c = .letter || category c = .number || c == '-' || c == '_' || c == '.' || c == '~'

/-- The delimiters between components, without the colon and the slash. -/
def isOtherGenDelim (c : Char) : Bool :=
  c == '?' || c == '#' || c == '[' || c == ']' || c == '@'

/-- Letters, numbers and the ASCII characters that have a place in an IRI. -/
def isIriChar (c : Char) : Bool :=
  isWordChar c || isSubDelim c || isOtherGenDelim c || c == ':' || c == '/' || c == '%'

/-- Text after the slashes, and colons right before slashes, that it starts with. -/
def dropLeadingSlashes : List Char → List Char
  | [] => []
  | c :: rest =>
    if c = '/' then dropLeadingSlashes rest
    else if c = ':' && rest.head? = some '/' then dropLeadingSlashes rest
    else c :: rest

/-- Write the slashes at the start, and colons right before them, as one underscore. -/
def underscoreLeadingSlashes (s : List Char) : List Char :=
  let kept := dropLeadingSlashes s
  if kept.length < s.length then '_' :: kept else s

/-- What becomes an underscore, pass by pass, while the text is not a reference. -/
def repairPasses : List (List Char → List Char) :=
  [ underscoreRuns fun c => !isIriChar c,
    underscoreLeadingSlashes,
    underscoreRuns isSubDelim,
    underscoreRuns isOtherGenDelim,
    underscoreRuns (· == '/'),
    underscoreRuns (· == ':'),
    underscoreRuns fun c => !isWordChar c ]

/-- Apply passes until the text is a reference, if it becomes one. -/
def repairWith : List (List Char → List Char) → List Char → Option (List Char)
  | [], s => if isReference s then some s else none
  | pass :: passes, s =>
    if isReference s then some s else repairWith passes (collapseUnderscores (pass s))

def repair (s : List Char) : Option (List Char) :=
  if s.isEmpty then none
  else
    repairWith repairPasses
      (collapseUnderscores (underscoreRuns (fun c => isBlankFormat c || isNeverAllowed c) s))

/-- A reference made out of text; none out of the empty text. -/
def ofText? (s : String) : Option String :=
  (repair s.toList).map String.ofList

end TableGraph.Iri
