import TableGraph.Standard

/-!
# RDF terms and triples

An RDF term is an IRI, a blank node or a literal, and a triple is two terms joined by the IRI of a
property. Terms are ordered by kind (IRIs, blank nodes, literals) and then by their text, and triples
by subject, property and object.
-/

namespace TableGraph

/-- The identity of a blank node: its label, without the mark `_:`. -/
structure BlankId where
  label : String
  deriving DecidableEq, Repr

inductive Term
  /-- An absolute IRI. -/
  | iri (text : String)
  | blank (id : BlankId)
  | literal (value : String) (datatype : Option String) (language : Option String)
  deriving DecidableEq, Repr

namespace Term

/-! ## Literals -/

def plain (value : String) : Term :=
  .literal value none none

def typed (value datatype : String) : Term :=
  .literal value (some datatype) none

/-- A literal with a language, which fixes its datatype. -/
def langString (value language : String) : Term :=
  .literal value (some Standard.rdfLangString) (some language)

/-! ## Kinds -/

def isIri : Term → Bool
  | .iri _ => true
  | _ => false

def isBlank : Term → Bool
  | .blank _ => true
  | _ => false

def isLiteral : Term → Bool
  | .literal .. => true
  | _ => false

def iri? : Term → Option String
  | .iri i => some i
  | _ => none

def blank? : Term → Option BlankId
  | .blank id => some id
  | _ => none

/-! ## Text -/

/-- A character of a literal between its quotes. -/
def escape (c : Char) : List Char :=
  if c = '\\' || c = '"' then ['\\', c] else [c]

/-- A term in the manner of N-Triples. -/
def text : Term → String
  | .iri i => "<" ++ i ++ ">"
  | .blank id => "_:" ++ id.label
  | .literal value datatype language =>
    "\"" ++ String.ofList (value.toList.flatMap escape) ++ "\"" ++
      match language, datatype with
      | some language, _ => "@" ++ language
      | none, some datatype => "^^<" ++ datatype ++ ">"
      | none, none => ""

/-! ## Order -/

/-- The order of terms: IRIs, blank nodes, literals, and each kind by its text. What is absent comes
before what is present. -/
def compare : Term → Term → Ordering
  | .iri a, .iri b => Ord.compare a b
  | .iri _, _ => .lt
  | .blank _, .iri _ => .gt
  | .blank a, .blank b => Ord.compare a.label b.label
  | .blank _, .literal .. => .lt
  | .literal a d l, .literal b e m =>
    (Ord.compare a b).then ((Ord.compare d e).then (Ord.compare l m))
  | .literal .., _ => .gt

instance : Ord Term := ⟨Term.compare⟩

end Term

/-- A statement: a subject, the IRI of a property, and an object. -/
structure Triple where
  subject : Term
  property : String
  object : Term
  deriving DecidableEq, Repr

namespace Triple

/-- A triple in the manner of N-Triples. -/
def text (t : Triple) : String :=
  t.subject.text ++ " <" ++ t.property ++ "> " ++ t.object.text ++ " ."

/-- The order of triples: by subject, then property, then object. -/
def compare (a b : Triple) : Ordering :=
  (Ord.compare a.subject b.subject).then
    ((Ord.compare a.property b.property).then (Ord.compare a.object b.object))

instance : Ord Triple := ⟨Triple.compare⟩

end Triple

end TableGraph
