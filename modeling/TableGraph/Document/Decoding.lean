import TableGraph.Document.Basic
import TableGraph.Json.Fields

/-!
# Documents from JSON

Each part of a document is read from its value, or refused if the value has another shape. A node is
read with everything below it: a value of the wrong shape at any depth refuses the whole node.
-/

namespace TableGraph.Document

open Json (optional withDefault list?)

def ValueSource.ofJson? (v : Json) : Option ValueSource := do
  match ← v.fields? ["source", "columnName", "constant"] with
  | [source, columnName, constant] =>
    return { source := ← withDefault "" Json.string? source
             columnName := ← optional Json.string? columnName
             constant := ← optional Json.string? constant }
  | _ => none

def StoredExpression.ofJson? (v : Json) : Option StoredExpression := do
  match ← v.fields? ["language", "code"] with
  | [language, code] =>
    return { language := ← optional Json.string? language
             code := ← withDefault "" Json.string? code }
  | _ => none

def StoredName.ofJson? (v : Json) : Option StoredName := do
  match ← v.fields? ["prefix", "valueSource"] with
  | [label, valueSource] =>
    return { label := ← optional Json.string? label
             valueSource := ← optional ValueSource.ofJson? valueSource }
  | _ => none

def StoredType.ofJson? (v : Json) : Option StoredType := do
  match ← v.fields? ["type", "datatype", "language"] with
  | [kind, datatype, language] =>
    return { kind := ← withDefault "" Json.string? kind
             datatype := ← optional StoredName.ofJson? datatype
             language := ← optional Json.string? language }
  | _ => none

/-- Read a property, with a way to read its objects. -/
def propertyOfJson? (object : Json → Option StoredNode) (v : Json) :
    Option (StoredName × List StoredNode) := do
  match ← v.fields? ["prefix", "valueSource", "objectMappings"] with
  | [label, valueSource, objects] =>
    let name : StoredName :=
      { label := ← optional Json.string? label
        valueSource := ← optional ValueSource.ofJson? valueSource }
    return (name, ← withDefault [] (list? object) objects)
  | _ => none

/-- Read a node with nodes nested at most so many levels deep. -/
def StoredNode.ofJsonWithin? : Nat → Json → Option StoredNode
  | 0, _ => none
  | levels + 1, v => do
    match ← v.fields?
      ["prefix", "valueSource", "expression", "valueType", "typeMappings", "propertyMappings"] with
    | [label, valueSource, expression, valueType, types, properties] =>
      let head : NodeHead :=
        { label := ← optional Json.string? label
          valueSource := ← optional ValueSource.ofJson? valueSource
          expression := ← optional StoredExpression.ofJson? expression
          valueType := ← optional StoredType.ofJson? valueType }
      let types ← withDefault [] (list? StoredName.ofJson?) types
      let properties ← withDefault [] (list? (propertyOfJson? (ofJsonWithin? levels))) properties
      return .mk head types properties
    | _ => none

/-- Read a node. Nodes are not nested deeper than the values they are written in. -/
def StoredNode.ofJson? (v : Json) : Option StoredNode :=
  ofJsonWithin? (v.depth + 1) v

def BaseParts.ofJson? (v : Json) : Option BaseParts := do
  match ← v.fields? ["scheme", "userInfo", "host", "port", "path", "query", "fragment"] with
  | [scheme, userInfo, host, port, path, query, fragment] =>
    return { scheme := ← optional Json.string? scheme
             userInfo := ← optional Json.string? userInfo
             host := ← optional Json.string? host
             port := ← optional (Json.intOfBits? 63) port
             path := ← optional Json.string? path
             query := ← optional Json.string? query
             fragment := ← optional Json.string? fragment }
  | _ => none

def StoredBase.ofJson? : Json → Option StoredBase
  | .string s => some (.text s)
  | v => (BaseParts.ofJson? v).map .parts

/-- Read a namespace. A described one is an object. -/
def StoredNamespace.ofJson? : Json → Option StoredNamespace
  | .string s => some (.plain s)
  | .object entries => do
    let ns ← Json.find? "namespace" entries >>= Json.string?
    let location ← optional Json.string? (Json.find? "location" entries)
    let loctype ← optional Json.string? (Json.find? "loctype" entries)
    return .described ns location loctype
  | _ => none

end TableGraph.Document

namespace TableGraph

def Document.ofJson? (v : Json) : Option Document := do
  match ← v.fields? ["extension", "version", "baseIRI", "namespaces", "subjectMappings"] with
  | [extension, version, base, namespaces, subjectMappings] =>
    return { extension := ← Json.optional Json.string? extension
             version := ← Json.optional Json.string? version
             base := ← Json.optional StoredBase.ofJson? base
             namespaces := ← Json.optional Json.entries? namespaces
             subjectMappings := ← Json.optional Json.items? subjectMappings }
  | _ => none

end TableGraph
