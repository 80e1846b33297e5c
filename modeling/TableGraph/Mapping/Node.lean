import TableGraph.BlankLabel.Rule
import TableGraph.Mapping.Source
import TableGraph.Naming

/-!
# Mapping trees

A mapping tree says which triples a row makes. Its nodes make terms: a resource node makes IRIs or
blank nodes and has types and properties, whose objects are nodes again, and a literal node makes
literals. Either takes its values from a constant or from a cell.
-/

namespace TableGraph

/-- How a node makes IRIs and blank nodes. -/
inductive ResourceMaker
  /-- One IRI. Its expression is kept but not evaluated. -/
  | constantIri (constant : String) (label : Option String) (expression : Expression)
  /-- One blank node, whose label is made of `seed`. -/
  | constantBlank (seed : String) (expression : Expression) (rule : LabelRule)
  /-- An IRI for each value of a cell. -/
  | cellIri (cell : CellSource) (label : Option String)
  /-- A blank node for each value of a cell. -/
  | cellBlank (cell : CellSource)
  deriving DecidableEq

/-- Where the values of literals come from. -/
inductive LiteralSource
  | constant (text : String) (expression : Expression)
  | cell (cell : CellSource)
  deriving DecidableEq, Repr

/-- How a node makes literals. -/
structure LiteralMaker where
  source : LiteralSource
  datatype : Option IriName
  language : Option String
  deriving DecidableEq, Repr

/-- A node of a mapping tree. A property has a name and the node that makes its objects, or none. -/
inductive Node
  | resource (maker : ResourceMaker) (types : List IriName) (properties : List (IriName × Option Node))
  | literal (maker : LiteralMaker)

/-- A property: its name, and the node that makes its objects if there is one. -/
abbrev Property := IriName × Option Node

namespace ResourceMaker

def expression : ResourceMaker → Expression
  | .constantIri _ _ e | .constantBlank _ e _ => e
  | .cellIri cell _ | .cellBlank cell => cell.expression

def kind : ResourceMaker → SourceKind
  | .constantIri .. | .constantBlank .. => .constant
  | .cellIri cell _ | .cellBlank cell => cell.kind

/-- What terms a maker makes. -/
def valueType : ResourceMaker → ValueType
  | .constantIri .. | .cellIri .. => .iri
  | .constantBlank .. => .constantBlank
  | .cellBlank _ => .blank

def isConstant : ResourceMaker → Bool
  | .constantIri .. | .constantBlank .. => true
  | _ => false

end ResourceMaker

namespace LiteralMaker

def expression (m : LiteralMaker) : Expression :=
  match m.source with
  | .constant _ e => e
  | .cell cell => cell.expression

def kind (m : LiteralMaker) : SourceKind :=
  match m.source with
  | .constant .. => .constant
  | .cell cell => cell.kind

/-- What terms a maker makes. A datatype counts before a language. -/
def valueType (m : LiteralMaker) : ValueType :=
  match m.datatype, m.language with
  | some _, _ => .datatypeLiteral
  | none, some _ => .languageLiteral
  | none, none => .literal

def isConstant (m : LiteralMaker) : Bool :=
  match m.source with
  | .constant .. => true
  | .cell _ => false

end LiteralMaker

namespace Node

/-! ## Building -/

def constantIri (constant : String) (label : Option String) : Node :=
  .resource (.constantIri (Text.stripSpace constant) (label.map Text.stripSpace) .cellValue) [] []

def constantBlank (seed : String) (rule : LabelRule) : Node :=
  .resource (.constantBlank seed .cellValue rule) [] []

def cellIri (cell : CellSource) (label : Option String) : Node :=
  .resource (.cellIri cell (label.map Text.stripSpace)) [] []

def cellBlank (cell : CellSource) : Node :=
  .resource (.cellBlank cell) [] []

def constantLiteral (text : String) (datatype : Option IriName) (language : Option String) : Node :=
  .literal ⟨.constant text .cellValue, datatype, language⟩

def cellLiteral (cell : CellSource) (datatype : Option IriName) (language : Option String) : Node :=
  .literal ⟨.cell cell, datatype, language⟩

def withExpression (e : Expression) : Node → Node
  | .resource (.constantIri c l _) types properties =>
    .resource (.constantIri c l e) types properties
  | .resource (.constantBlank s _ rule) types properties =>
    .resource (.constantBlank s e rule) types properties
  | .resource (.cellIri cell l) types properties =>
    .resource (.cellIri (cell.withExpression e) l) types properties
  | .resource (.cellBlank cell) types properties =>
    .resource (.cellBlank (cell.withExpression e)) types properties
  | .literal ⟨.constant t _, d, l⟩ => .literal ⟨.constant t e, d, l⟩
  | .literal ⟨.cell cell, d, l⟩ => .literal ⟨.cell (cell.withExpression e), d, l⟩

/-- A node with one more type. A literal has none. -/
def withType (name : IriName) : Node → Node
  | .resource m types properties => .resource m (types ++ [name]) properties
  | node => node

/-- A node with one more property. A literal has none. -/
def withProperty (p : Property) : Node → Node
  | .resource m types properties => .resource m types (properties ++ [p])
  | node => node

/-! ## What a node is -/

def types : Node → List IriName
  | .resource _ types _ => types
  | .literal _ => []

def properties : Node → List Property
  | .resource _ _ properties => properties
  | .literal _ => []

def expression : Node → Expression
  | .resource m _ _ => m.expression
  | .literal m => m.expression

def kind : Node → SourceKind
  | .resource m _ _ => m.kind
  | .literal m => m.kind

/-- What terms a node makes. -/
def valueType : Node → ValueType
  | .resource m _ _ => m.valueType
  | .literal m => m.valueType

/-- Whether a node can be a subject. -/
def isResource : Node → Bool
  | .resource .. => true
  | .literal _ => false

def isConstant : Node → Bool
  | .resource m _ _ => m.isConstant
  | .literal m => m.isConstant

/-- Whether a node takes its value from the index of the row or record. -/
def isIndex (node : Node) : Bool := node.kind.isIndex

/-! ## Conditions -/

mutual

/-- Every node of a tree meets a condition. -/
def Every (p : Node → Prop) : Node → Prop
  | .resource maker types properties =>
    p (.resource maker types properties) ∧ EveryObject p properties
  | .literal maker => p (.literal maker)

/-- Every node below properties meets a condition. -/
def EveryObject (p : Node → Prop) : List (IriName × Option Node) → Prop
  | [] => True
  | (_, none) :: rest => EveryObject p rest
  | (_, some object) :: rest => Every p object ∧ EveryObject p rest

end

theorem every_iff {p : Node → Prop} {node : Node} :
    node.Every p ↔ p node ∧ EveryObject p node.properties := by
  cases node <;> simp [Every, EveryObject, properties]

/-! ## Equality -/

mutual

/-- Equality of nodes can be decided. -/
def decEq : (a b : Node) → Decidable (a = b)
  | .resource m types properties, .resource m' types' properties' =>
    match decEqProperties properties properties' with
    | .isTrue hp =>
      if hm : m = m' then
        if ht : types = types' then .isTrue (by rw [hm, ht, hp]) else .isFalse (by simp [ht])
      else .isFalse (by simp [hm])
    | .isFalse hp => .isFalse (by simp [hp])
  | .literal m, .literal m' => if h : m = m' then .isTrue (by rw [h]) else .isFalse (by simp [h])
  | .resource .., .literal _ | .literal _, .resource .. => .isFalse (by simp)

def decEqProperties : (a b : List (IriName × Option Node)) → Decidable (a = b)
  | [], [] => .isTrue rfl
  | [], _ :: _ | _ :: _, [] => .isFalse (by simp)
  | (n, some x) :: a, (n', some y) :: b =>
    match decEq x y, decEqProperties a b with
    | .isTrue h, .isTrue h' =>
      if hn : n = n' then .isTrue (by rw [hn, h, h']) else .isFalse (by simp [hn])
    | .isFalse h, _ => .isFalse (by simp [h])
    | _, .isFalse h => .isFalse (by simp [h])
  | (n, none) :: a, (n', none) :: b =>
    match decEqProperties a b with
    | .isTrue h => if hn : n = n' then .isTrue (by rw [hn, h]) else .isFalse (by simp [hn])
    | .isFalse h => .isFalse (by simp [h])
  | (_, some _) :: _, (_, none) :: _ | (_, none) :: _, (_, some _) :: _ => .isFalse (by simp)

end

instance : DecidableEq Node := decEq

end Node

end TableGraph
