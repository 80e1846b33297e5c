import TableGraph.Error
import TableGraph.Iri.Resolution

/-!
# From candidate text to an absolute IRI

`resolveCandidate` tries what a text may mean as an IRI: itself, a reference against the base, and the
same with a slash in front, which recovers a root slash that was left out. Each attempt that fails
leaves its fault, and the last fault is reported if no attempt succeeds.
-/

namespace TableGraph.Iri

/-- Read the base IRI of a transform; white space around it does not count. -/
def parseBase (text : String) : Except TransformError Iri :=
  (parse (Text.trim text)).mapError (.malformedIri text ·)

/-- Resolve a candidate against a base, with a slash in front if it does not resolve as it is. -/
def resolveWithSlash (base : Iri) (candidate : String) : Except Fault Iri :=
  match resolve base candidate with
  | .ok iri => .ok iri
  | .error fault =>
    if candidate.toList.head? = some '/' then .error fault
    else resolve base ("/" ++ candidate)

/-- The absolute IRI that a candidate means. There is none for empty text, nor for a relative
reference without a base. -/
def resolveCandidate (base : Option Iri) (candidate : String) :
    Except TransformError (Option String) :=
  if candidate.isEmpty then .ok none
  else
    match Reference.parse candidate, base with
    | .ok (.absolute iri), _ => .ok (some iri.text)
    | .ok (.relative _), none => .ok none
    | .error fault, none => .error (.malformedIri candidate fault)
    | _, some base =>
      match resolveWithSlash base candidate with
      | .ok iri => .ok (some iri.text)
      | .error fault => .error (.malformedIri candidate fault)

end TableGraph.Iri
