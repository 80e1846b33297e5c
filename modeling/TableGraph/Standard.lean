/-!
# Standard vocabularies

The namespaces and terms that are known without being declared: the RDF terms that are written into
every graph that needs them, and the built-in XML Schema datatypes by their local names.
-/

namespace TableGraph.Standard

def rdf : String := "http://www.w3.org/1999/02/22-rdf-syntax-ns#"

/-- The property that says of what type a resource is. -/
def rdfType : String := "http://www.w3.org/1999/02/22-rdf-syntax-ns#type"

/-- The datatype of strings with a language. -/
def rdfLangString : String := "http://www.w3.org/1999/02/22-rdf-syntax-ns#langString"

def xsd : String := "http://www.w3.org/2001/XMLSchema#"

/-- The local names of the built-in XML Schema datatypes. -/
def xsdDatatypes : List String :=
  ["duration", "dateTime", "time", "date", "gYearMonth", "gYear", "gMonthDay", "gDay", "gMonth",
    "boolean", "base64Binary", "hexBinary", "float", "double", "anyURI", "QName", "NOTATION",
    "string", "normalizedString", "token", "language", "Name", "NCName", "ID", "IDREF", "IDREFS",
    "ENTITY", "ENTITIES", "NMTOKEN", "NMTOKENS",
    "decimal", "integer", "nonPositiveInteger", "negativeInteger", "long", "int", "short", "byte",
    "nonNegativeInteger", "unsignedLong", "unsignedInt", "unsignedShort", "unsignedByte",
    "positiveInteger"]

/-- The local name of a built-in datatype that is written with the usual prefix `xsd:`. -/
def xsdLocalName? (name : String) : Option String :=
  match name.toList with
  | 'x' :: 's' :: 'd' :: ':' :: localName =>
    let localName := String.ofList localName
    if xsdDatatypes.contains localName then some localName else none
  | _ => none

/-- Whether a name is a built-in datatype written with the usual prefix `xsd:`. -/
def isXsdName (name : String) : Bool :=
  (xsdLocalName? name).isSome

end TableGraph.Standard
