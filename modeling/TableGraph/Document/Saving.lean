import TableGraph.Document.Encoding
import TableGraph.Json.Writer
import TableGraph.Transform

/-!
# Saving transforms

A transform is written as a document of the current version. The expression that takes a cell as it is
is left out, and so is the value type of a root that makes IRIs; a vocabulary is written with its
location only if it has one.
-/

namespace TableGraph.Document

/-- The name that documents have for their extension. -/
def extensionName : String := "RDFTransform"

def saveConstant (text : String) : ValueSource :=
  ⟨SourceKind.constant.name, none, some text⟩

def saveCell (cell : CellSource) : ValueSource :=
  ⟨cell.kind.name, cell.askedColumn, none⟩

/-- The expression of a node, unless it takes the cell as it is. -/
def saveExpression (e : Expression) : Option StoredExpression :=
  if e.isDefault then none else some ⟨some e.language, e.code⟩

def saveName (n : IriName) : StoredName :=
  ⟨n.label, some (saveConstant n.path)⟩

/-- What a resource node says about its terms. Blank nodes have no label. -/
def saveResourceMaker (isRoot : Bool) (m : ResourceMaker) : NodeHead where
  label :=
    match m with
    | .constantIri _ label _ | .cellIri _ label => label
    | .constantBlank .. | .cellBlank _ => none
  valueSource :=
    some
      (match m with
        | .constantIri constant _ _ => saveConstant constant
        | .constantBlank seed _ _ => saveConstant seed
        | .cellIri cell _ | .cellBlank cell => saveCell cell)
  expression := saveExpression m.expression
  valueType :=
    if isRoot && m.valueType = .iri then none else some ⟨m.valueType.name, none, none⟩

def saveLiteralMaker (m : LiteralMaker) : NodeHead where
  label := none
  valueSource :=
    some
      (match m.source with
        | .constant text _ => saveConstant text
        | .cell cell => saveCell cell)
  expression := saveExpression m.expression
  valueType := some ⟨m.valueType.name, m.datatype.map saveName, m.language⟩

mutual

def saveNode (isRoot : Bool) : Node → StoredNode
  | .resource m types properties =>
    .mk (saveResourceMaker isRoot m) (types.map saveName) (saveProperties properties)
  | .literal m => .mk (saveLiteralMaker m) [] []

/-- Properties as they are stored, each with its own object. -/
def saveProperties : List (IriName × Option Node) → List (StoredName × List StoredNode)
  | [] => []
  | (name, some object) :: rest => (saveName name, [saveNode false object]) :: saveProperties rest
  | (name, none) :: rest => (saveName name, []) :: saveProperties rest

end

def saveVocabulary (v : Vocabulary) : StoredNamespace :=
  if v.location.isEmpty && v.locationType = .nowhere then .plain v.ns
  else .described v.ns (some v.location) (some v.locationType.name)

end TableGraph.Document

namespace TableGraph.Transform

def toDocument (t : Transform) : Document where
  extension := some Document.extensionName
  version := some currentVersion
  base := some (.text t.naming.base.text)
  namespaces :=
    some (t.naming.vocabularies.entries.map fun v => (v.label, (Document.saveVocabulary v).toJson))
  subjectMappings := some (t.roots.map fun root => (Document.saveNode true root).toJson)

def toJson (t : Transform) : Json := t.toDocument.toJson

def toText (t : Transform) : String := t.toJson.text

end TableGraph.Transform
