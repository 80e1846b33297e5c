import TableGraph.Config
import TableGraph.Document.Decoding
import TableGraph.Json.Reader
import TableGraph.Transform

/-!
# Loading documents

Loading is lenient: a base IRI that is none gives way to the default, and a namespace, root, type or
property that cannot be used is passed over, while the rest still loads. Only a document of another
shape, or settings that describe no rule for labels, make it fail. An object that cannot be used leaves
its property without one.
-/

namespace TableGraph.Document

/-! ## Nodes -/

/-- The constant that a type, property or datatype is named by. -/
def constantPath (source : Option ValueSource) : Except TransformError String :=
  match source with
  | none => .error (.missingProperty "valueSource")
  | some s =>
    if s.source = SourceKind.constant.name then
      match s.constant with
      | some path => .ok path
      | none => .error (.missingProperty "constant")
    else .error (.sourceNotConstant s.source)

/-- A usable value source: a constant or a cell. -/
inductive UsableSource
  | constant (text : String)
  | cell (cell : CellSource)

/-- What a value source means, if it is usable. -/
def usableSource (source : Option ValueSource) : Except TransformError UsableSource :=
  match source with
  | none => .error (.missingProperty "valueSource")
  | some s =>
    match SourceKind.ofName? s.source with
    | none => .error (.unknownSource s.source)
    | some .rowIndex => .ok (.cell .rowIndex)
    | some .recordIndex => .ok (.cell .recordIndex)
    | some .column =>
      match s.columnName with
      | some name =>
        if name.isEmpty then .error (.missingProperty "columnName") else .ok (.cell (.ofColumn name))
      | none => .error (.missingProperty "columnName")
    | some .constant =>
      match s.constant with
      | some text => .ok (.constant text)
      | none => .error (.missingProperty "constant")
    | some .expression => .error .expressionSource

/-- The expression of a node. One without code is left out. -/
def usableExpression (e : Option StoredExpression) : Expression :=
  match e with
  | none => .cellValue
  | some e => if (Text.trim e.code).isEmpty then .cellValue else .parse e.language e.code

/-- The value type of a node; an IRI where none is named. -/
def usableType (t : Option StoredType) : Except TransformError ValueType :=
  match t with
  | none => .ok .iri
  | some t =>
    if t.kind.isEmpty then .ok .iri
    else
      match ValueType.ofName? t.kind with
      | some type => .ok type
      | none => .error (.unknownValueType t.kind)

/-- A datatype; none if it is not named by a constant. -/
def usableDatatype (n : StoredName) : Option IriName :=
  match constantPath n.valueSource with
  | .ok value => some (.ofDatatype n.label value)
  | .error _ => none

/-- The types of a node, without those that are not named by a constant. -/
def usableNames (names : List StoredName) : List IriName :=
  names.filterMap fun n =>
    match constantPath n.valueSource with
    | .ok path => some (.ofParts n.label path)
    | .error _ => none

def literalMaker (source : UsableSource) (e : Expression) (t : Option StoredType) : LiteralMaker where
  source :=
    match source with
    | .constant text => .constant text e
    | .cell cell => .cell (cell.withExpression e)
  datatype := t.bind fun t => t.datatype.bind usableDatatype
  language := t.bind fun t => t.language.bind Text.trimmed?

def resourceMaker (rule : LabelRule) (isIri : Bool) (source : UsableSource) (e : Expression)
    (label : Option String) : ResourceMaker :=
  match isIri, source with
  | true, .constant text => .constantIri (Text.stripSpace text) (label.map Text.stripSpace) e
  | true, .cell cell => .cellIri (cell.withExpression e) (label.map Text.stripSpace)
  | false, .constant text => .constantBlank text e rule
  | false, .cell cell => .cellBlank (cell.withExpression e)

mutual

/-- The node that a stored one means. -/
def loadNode (rule : LabelRule) (isRoot : Bool) : StoredNode → Except TransformError Node
  | .mk head types properties => do
    let type ← usableType head.valueType
    if isRoot && type.isLiteral then .error .literalRoot
    else
      let source ← usableSource head.valueSource
      let e := usableExpression head.expression
      if type.isLiteral then return .literal (literalMaker source e head.valueType)
      else
        return .resource (resourceMaker rule (type = .iri) source e head.label) (usableNames types)
          (loadProperties rule properties)

/-- The properties that stored ones mean, one for each object. -/
def loadProperties (rule : LabelRule) : List (StoredName × List StoredNode) → List Property
  | [] => []
  | (name, objects) :: rest =>
    match constantPath name.valueSource with
    | .ok path => loadObjects rule (.ofParts name.label path) objects ++ loadProperties rule rest
    | .error _ => loadProperties rule rest

/-- The properties of one name: one for each object, or one without an object if there are none. -/
def loadObjects (rule : LabelRule) (name : IriName) : List StoredNode → List Property
  | [] => [(name, none)]
  | [object] => [(name, (loadNode rule false object).toOption)]
  | object :: rest => (name, (loadNode rule false object).toOption) :: loadObjects rule name rest

end

/-! ## Documents -/

/-- The vocabulary that a namespace entry means, if it has the shape of one. -/
def loadVocabulary (label : String) (v : Json) : Option Vocabulary :=
  match StoredNamespace.ofJson? v with
  | some (.plain ns) => some { label, ns }
  | some (.described ns location loctype) =>
    some
      { label, ns
        location := location.getD ""
        locationType := (loctype.map LocationType.ofName).getD .nowhere }
  | none => none

def loadVocabularies (entries : List (String × Json)) : VocabularyList :=
  .ofList (entries.filterMap fun (label, v) => loadVocabulary label v)

/-- The root that a raw value means, if it is usable as one. -/
def loadRoot (rule : LabelRule) (v : Json) : Option Node :=
  StoredNode.ofJson? v >>= fun stored => (loadNode rule true stored).toOption

def loadBase (base : Option StoredBase) : Iri :=
  ((base.bind fun b => (Iri.parseBase b.iriText).toOption)).getD Transform.defaultBase

/-- The transform that a document means. -/
def load (rule : LabelRule) (d : Document) : Transform where
  naming :=
    { base := loadBase d.base
      vocabularies := (d.namespaces.map loadVocabularies).getD .predefined }
  roots := (d.subjectMappings.getD []).filterMap (loadRoot rule)
  version := d.version.getD Transform.currentVersion

end TableGraph.Document

namespace TableGraph.Transform

/-- Load a transform from a value. -/
def ofJson (config : Config) (v : Json) (read : ClassReader := BlankLabel.CharacterSet.ofText?) :
    Except TransformError Transform :=
  match Document.ofJson? v with
  | none => .error .json
  | some d => (config.labelRule read).map d.load

def ofText (config : Config) (s : String) (read : ClassReader := BlankLabel.CharacterSet.ofText?) :
    Except TransformError Transform :=
  match Json.parse? s with
  | none => .error .json
  | some v => ofJson config v read

end TableGraph.Transform
