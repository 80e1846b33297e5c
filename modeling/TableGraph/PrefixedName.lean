import TableGraph.Standard
import TableGraph.Iri.Candidate

/-!
# Prefixed names

A prefixed name `p:local` stands for the namespace bound to `p` followed by `local`. Such a name has
the form of an absolute IRI without an authority, and that is how it is recognised; where the prefix
ends is counted in bytes.
-/

namespace TableGraph.PrefixedName

open Text (byteLength cutAt dropEndWhile)

/-- Whether text holds the mark `://` that comes before an authority. -/
def hasAuthorityMark : List Char → Bool
  | [] => false
  | c :: rest => [':', '/', '/'].isPrefixOf (c :: rest) || hasAuthorityMark rest

/-- The full IRI of a prefixed name. Text that is no prefixed name, or whose prefix is not bound, is
left as it is. -/
def expand (namespaceOf : String → Option String) (candidate : String) : String :=
  if hasAuthorityMark candidate.toList then candidate
  else
    match cutAt ':' candidate.toList with
    | none => candidate
    | some (label, localPart) =>
      match namespaceOf (String.ofList label) with
      | some ns => ns ++ String.ofList localPart
      | none => candidate

/-- The prefix and the local part of a value that is an IRI without an authority. -/
def split? (value : String) : Option (String × String) :=
  match Iri.parse value with
  | .ok ⟨scheme, tail⟩ =>
    if tail.authority.isSome then none
    else some (String.ofList scheme, String.ofList tail.chars)
  | .error _ => none

def positionAfterLast (c : Char) (s : List Char) : Option Nat :=
  let kept := dropEndWhile (· != c) s
  if kept.isEmpty then none else some (byteLength kept)

/-- The position where the local part of a full IRI starts: behind the first number sign, else behind
the last slash, else behind the last colon. -/
def localPartPosition? (iri : String) : Option Nat :=
  match cutAt '#' iri.toList with
  | some (before, _) => some (byteLength before + 1)
  | none => positionAfterLast '/' iri.toList <|> positionAfterLast ':' iri.toList

/-- The position of the colon behind the prefix, if text is a prefixed name. A name without a prefix
refers to the base, and a prefix may stand alone where no white space is near. -/
def colonPosition? (name : String) : Option Nat :=
  match cutAt ':' name.toList with
  | none => none
  | some (label, localPart) =>
    if label.isEmpty then some 0
    else if localPart.isEmpty then
      if name.toList.any Unicode.isWhiteSpace then none else some (byteLength label)
    else
      match Iri.Reference.parse name with
      | .ok (.absolute iri) =>
        if iri.tail.authority.isSome then none else some (byteLength label)
      | _ => none

def isPrefixed (name : String) : Bool :=
  (colonPosition? name).isSome

def withPrefix (label : Option String) (localPart : String) : String :=
  match label with
  | some label => label ++ ":" ++ localPart
  | none => localPart

/-- The datatype that a declaration names: a built-in one by its prefixed name, any other as an
absolute IRI. -/
def datatype? (base : Option Iri) (label : Option String) (value : String) : Option String :=
  let name := withPrefix label value
  if Standard.isXsdName name then some name
  else
    match Iri.resolveCandidate base name with
    | .ok iri => iri
    | .error _ => none

end TableGraph.PrefixedName
