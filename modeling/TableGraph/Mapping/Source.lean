import TableGraph.Error
import TableGraph.Expression
import TableGraph.Json.Writer

/-!
# Where values come from

A node takes its values from a constant or from a cell. A `CellSource` says which cell of a row, and
what expression to evaluate on it. The host evaluates (`Evaluator`), and its answer, whatever JSON it
is, fans out into texts: `Json.texts` flattens arrays and leaves out what is empty.
-/

namespace TableGraph

/-! ## Names of sources and value types -/

inductive SourceKind
  | rowIndex
  | recordIndex
  | column
  | constant
  /-- An expression without a cell, which has no values. -/
  | expression
  deriving DecidableEq, Repr

namespace SourceKind

def name : SourceKind → String
  | .rowIndex => "row_index"
  | .recordIndex => "record_id"
  | .column => "column"
  | .constant => "constant"
  | .expression => "expression"

def ofName? : String → Option SourceKind
  | "row_index" => some .rowIndex
  | "record_id" => some .recordIndex
  | "column" => some .column
  | "constant" => some .constant
  | "expression" => some .expression
  | _ => none

def isIndex : SourceKind → Bool
  | .rowIndex | .recordIndex => true
  | _ => false

end SourceKind

/-- What terms a node makes. -/
inductive ValueType
  | iri
  | blank
  /-- The blank node of a constant. -/
  | constantBlank
  | literal
  | datatypeLiteral
  | languageLiteral
  deriving DecidableEq, Repr

namespace ValueType

def name : ValueType → String
  | .iri => "iri"
  | .blank => "bnode"
  | .constantBlank => "value_bnode"
  | .literal => "literal"
  | .datatypeLiteral => "datatype_literal"
  | .languageLiteral => "language_literal"

def ofName? : String → Option ValueType
  | "iri" => some .iri
  | "bnode" => some .blank
  | "value_bnode" => some .constantBlank
  | "literal" => some .literal
  | "datatype_literal" => some .datatypeLiteral
  | "language_literal" => some .languageLiteral
  | _ => none

def isLiteral : ValueType → Bool
  | .literal | .datatypeLiteral | .languageLiteral => true
  | _ => false

end ValueType

/-! ## Values -/

mutual

/-- The texts that a value fans out into: one for each scalar and object that is not empty, arrays
flattened in order. -/
def Json.texts : Json → List String
  | .null => []
  | .bool b => [if b then "true" else "false"]
  | .number n => [n.text]
  | .string s => if s.isEmpty then [] else [s]
  | .array items => textsOfItems items
  | .object entries => [Json.text (.object entries)]

/-- The texts that values fan out into, in order. -/
def Json.textsOfItems : List Json → List String
  | [] => []
  | item :: rest => item.texts ++ textsOfItems rest

end

/-- The host's part: the value of an expression in a cell, from the name of its column and its row.
Without a column the cell is the row index. -/
abbrev Evaluator := Expression → Option String → Nat → Except EvalError Json

/-- A cell of every row, and what to evaluate on it. -/
structure CellSource where
  kind : SourceKind
  column : Option String
  expression : Expression
  deriving DecidableEq, Repr

namespace CellSource

def ofColumn (name : String) : CellSource := ⟨.column, some name, .cellValue⟩

def rowIndex : CellSource := ⟨.rowIndex, none, .cellValue⟩

def recordIndex : CellSource := ⟨.recordIndex, none, .cellValue⟩

def withExpression (cell : CellSource) (e : Expression) : CellSource :=
  { cell with expression := e }

def isIndex (cell : CellSource) : Bool := cell.kind.isIndex

/-- The column that the host is asked for; none for an index. -/
def askedColumn (cell : CellSource) : Option String :=
  if cell.isIndex then none else cell.column

/-- The texts in a row. An expression that fails has none. -/
def texts (cell : CellSource) (evaluate : Evaluator) (row : Nat) : List String :=
  if cell.kind = .expression then []
  else
    match evaluate cell.expression cell.askedColumn row with
    | .ok value => value.texts
    | .error _ => []

end CellSource

end TableGraph
