import TableGraph.PrefixedName
import TableGraph.Term
import TableGraph.Vocabulary

/-!
# What names mean

A `Naming` is a base IRI with a list of vocabularies. It turns names and values into terms: a resource
from a label and a path, a literal from a value with a datatype or a language. Text that makes no IRI
makes no term, and a literal falls back from a datatype that means nothing to its language, and from a
language that is none to a plain literal.
-/

namespace TableGraph

/-- The name of an IRI: a path, in the namespace of a label if there is one. The empty label is the
base. -/
structure IriName where
  label : Option String
  path : String
  deriving DecidableEq, Repr

namespace IriName

/-- A name without blank and format characters. -/
def ofParts (label : Option String) (path : String) : IriName :=
  ⟨label.map Text.stripSpace, Text.stripSpace path⟩

/-- The name of a datatype, whose path is kept as it is. -/
def ofDatatype (label : Option String) (value : String) : IriName :=
  ⟨label.map Text.stripSpace, value⟩

def isBlank (name : IriName) : Bool :=
  name.label.isNone && name.path.isEmpty

end IriName

/-- A subtag of a language tag: some letters or digits, at most eight. -/
def isLanguageSubtag (ok : Char → Bool) (s : List Char) : Bool :=
  1 ≤ s.length && s.length ≤ 8 && s.all ok

/-- Whether text has the shape of a language tag: subtags between hyphens, the first of letters. -/
def isLanguageTag (tag : String) : Bool :=
  match Text.pieces '-' tag.toList with
  | [] => false
  | primary :: more =>
    isLanguageSubtag Char.isAlpha primary && more.all (isLanguageSubtag Char.isAlphanum)

structure Naming where
  base : Iri
  vocabularies : VocabularyList
  deriving DecidableEq, Repr

namespace Naming

/-- The namespace of a label. The empty label means the base, unless it is bound. -/
def namespace? (n : Naming) (label : String) : Option String :=
  match n.vocabularies.namespace? label with
  | some ns => some ns
  | none => if label.isEmpty then some n.base.text else none

/-- The IRI of a namespace and a path behind it, if it is an absolute one. -/
def concat (ns path : String) : Except TransformError String :=
  let iri := ns ++ path
  match Iri.parse iri with
  | .ok _ => .ok iri
  | .error fault => .error (.malformedIri iri fault)

/-- The absolute IRI that a path means in the namespace of a label; none without a path. The name with
its label has to be resolvable also where the namespace takes the place of the label. -/
def resolve (n : Naming) (label : Option String) (raw : String) :
    Except TransformError (Option String) :=
  let path := Text.stripSpace raw
  if path.isEmpty then .ok none
  else
    match Iri.resolveCandidate (some n.base) (PrefixedName.withPrefix label path) with
    | .error e => .error e
    | .ok none => .ok none
    | .ok (some iri) =>
      match label.bind n.namespace? with
      | some ns => (concat ns path).map some
      | none => .ok (some iri)

/-- The absolute IRI that a name means, if it means one. -/
def iri? (n : Naming) (name : IriName) : Option String :=
  match n.resolve name.label name.path with
  | .ok iri => iri
  | .error _ => none

def resource? (n : Naming) (label : Option String) (raw : String) : Option Term :=
  (n.iri? ⟨label, raw⟩).map .iri

/-- The IRI term of a value. Without a label, a value that is a prefixed name with a bound label is
read as such. -/
def resourceOfValue? (n : Naming) (label : Option String) (raw : String) : Option Term :=
  let value := Text.stripSpace raw
  match label, PrefixedName.split? value with
  | none, some (embedded, localPart) =>
    if n.vocabularies.contains embedded then n.resource? (some embedded) localPart
    else n.resource? none value
  | label, _ => n.resource? label value

/-- The absolute IRI of a datatype. A label has to be bound; without one the name may be prefixed,
relative to the base, or that of a built-in datatype. -/
def datatype? (n : Naming) (datatype : IriName) : Option String :=
  let value := Text.stripSpace datatype.path
  if value.isEmpty then none
  else
    match datatype.label with
    | some label =>
      match n.namespace? label with
      | none => none
      | some ns => (concat ns value).toOption
    | none =>
      match PrefixedName.datatype? (some n.base) none (PrefixedName.expand n.namespace? value) with
      | none => none
      | some iri =>
        match Standard.xsdLocalName? iri with
        | some localName => some (Standard.xsd ++ localName)
        | none => some iri

/-- The literal of a value; none without a value. -/
def literal? (n : Naming) (raw : String) (datatype : Option IriName) (language : Option String) :
    Option Term :=
  if raw.isEmpty then none
  else
    match datatype.bind n.datatype? with
    | some iri => some (.typed raw iri)
    | none =>
      match language.bind Text.trimmed? with
      | some tag => some (if isLanguageTag tag then .langString raw tag else .plain raw)
      | none => some (.plain raw)

end Naming

end TableGraph
