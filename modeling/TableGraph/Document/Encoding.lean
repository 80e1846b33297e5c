import TableGraph.Document.Basic
import TableGraph.Json.Fields

/-!
# Documents as JSON

Each part of a document as a value, with its keys in their usual order. What is absent and what is
empty is left out.
-/

namespace TableGraph.Document

def ValueSource.toJson (s : ValueSource) : Json :=
  .object (("source", .string s.source) :: Json.entry "columnName" (s.columnName.map .string) ++
    Json.entry "constant" (s.constant.map .string))

def StoredExpression.toJson (e : StoredExpression) : Json :=
  .object (Json.entry "language" (e.language.map .string) ++ [("code", .string e.code)])

def StoredName.entries (n : StoredName) : List (String × Json) :=
  Json.entry "prefix" (n.label.map .string) ++
    Json.entry "valueSource" (n.valueSource.map ValueSource.toJson)

def StoredName.toJson (n : StoredName) : Json := .object n.entries

def StoredType.toJson (t : StoredType) : Json :=
  .object (("type", .string t.kind) :: Json.entry "datatype" (t.datatype.map StoredName.toJson) ++
    Json.entry "language" (t.language.map .string))

/-- The entries of a node for its own terms. -/
def NodeHead.entries (h : NodeHead) : List (String × Json) :=
  Json.entry "prefix" (h.label.map .string) ++
    Json.entry "valueSource" (h.valueSource.map ValueSource.toJson) ++
      Json.entry "expression" (h.expression.map StoredExpression.toJson) ++
        Json.entry "valueType" (h.valueType.map StoredType.toJson)

mutual

def StoredNode.toJson : StoredNode → Json
  | .mk head types properties =>
    .object (head.entries ++ Json.listEntry "typeMappings" (types.map StoredName.toJson) ++
      Json.listEntry "propertyMappings" (propertiesToJson properties))

def propertiesToJson : List (StoredName × List StoredNode) → List Json
  | [] => []
  | (name, objects) :: rest =>
    .object (name.entries ++ Json.listEntry "objectMappings" (nodesToJson objects)) ::
      propertiesToJson rest

def nodesToJson : List StoredNode → List Json
  | [] => []
  | node :: rest => node.toJson :: nodesToJson rest

end

def BaseParts.toJson (p : BaseParts) : Json :=
  let text (s : Option String) : Json := (s.map Json.string).getD .null
  .object
    [ ("scheme", text p.scheme), ("userInfo", text p.userInfo), ("host", text p.host),
      ("port", (p.port.map fun n => Json.number (.int n)).getD .null), ("path", text p.path),
      ("query", text p.query), ("fragment", text p.fragment) ]

def StoredBase.toJson : StoredBase → Json
  | .text iri => .string iri
  | .parts p => p.toJson

def StoredNamespace.toJson : StoredNamespace → Json
  | .plain ns => .string ns
  | .described ns location loctype =>
    .object (("namespace", .string ns) :: Json.entry "location" (location.map .string) ++
      Json.entry "loctype" (loctype.map .string))

end TableGraph.Document

namespace TableGraph

def Document.toJson (d : Document) : Json :=
  .object (Json.entry "extension" (d.extension.map .string) ++
    Json.entry "version" (d.version.map .string) ++
      Json.entry "baseIRI" (d.base.map StoredBase.toJson) ++
        Json.entry "namespaces" (d.namespaces.map .object) ++
          Json.entry "subjectMappings" (d.subjectMappings.map .array))

end TableGraph
