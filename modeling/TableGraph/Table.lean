import TableGraph.Cursor
import TableGraph.Mapping.Source

/-!
# Tables

A `Table` is a host: it evaluates expressions on the cells of its rows, and its rows fall into records.
Unless the records are given, a record starts at every row whose first cell is filled, and at the first
row.
-/

namespace TableGraph

/-- An expression that the host knows: the value from a cell and its row. -/
abbrev HostExpression := Json → Nat → Except EvalError Json

/-- Columns by name, rows of cells, and what the host knows beside them. -/
structure Table where
  columns : List String
  rows : Array (List Json)
  explicitRecords : Option (List Record)
  /-- Expressions by their code; the first of a code counts. -/
  expressions : List (String × HostExpression)

namespace Table

def pushRow (t : Table) (cells : List Json) : Table :=
  { t with rows := t.rows.push cells }

/-- Make an expression known under a code. -/
def register (t : Table) (code : String) (f : HostExpression) : Table :=
  { t with expressions := (code, f) :: t.expressions }

/-- The number of the first column of a name. -/
def columnIndex? (t : Table) (name : String) : Option Nat :=
  t.columns.idxOf? name

def cell? (t : Table) (row column : Nat) : Option Json :=
  t.rows[row]? >>= fun cells => cells[column]?

def rowCount (t : Table) : Nat := t.rows.size

/-! ## Evaluation -/

def rowIndexCode : String := "row.index"

/-- The cell that an expression is evaluated on: that of a column, or the row index. -/
def input (t : Table) (column : Option String) (row : Nat) : Except EvalError Json :=
  match column with
  | none => .ok (.ofNat row)
  | some name =>
    match t.columnIndex? name with
    | none => .error ⟨"unknown column '" ++ name ++ "'"⟩
    | some column => .ok ((t.cell? row column).getD .null)

def evaluate (t : Table) : Evaluator := fun e column row =>
  if t.rowCount ≤ row then .error ⟨"row " ++ toString row ++ " out of range"⟩
  else
    match t.input column row with
    | .error fault => .error fault
    | .ok cell =>
      if e.isIdentity then .ok cell
      else if e.code = rowIndexCode then .ok (.ofNat row)
      else
        match t.expressions.lookup e.code with
        | some f => f cell row
        | none => .error ⟨"unsupported expression '" ++ e.text ++ "'"⟩

/-! ## Records -/

def isFilled : Json → Bool
  | .null => false
  | .string s => !(Text.trim s).isEmpty
  | _ => true

/-- Whether a row has a first cell that is filled. -/
def startsRecord (t : Table) (row : Nat) : Bool :=
  (t.cell? row 0).any isFilled

/-- The records of the rows from `row` on, `rows` of them, when one started at `start`. -/
def recordsFrom (t : Table) (start : Nat) : (row rows : Nat) → List Record
  | row, 0 => [⟨start, row⟩]
  | row, rows + 1 =>
    if t.startsRecord row then ⟨start, row⟩ :: t.recordsFrom row (row + 1) rows
    else t.recordsFrom start (row + 1) rows

/-- The records of the rows, each started by a filled first cell. -/
def derivedRecords (t : Table) : List Record :=
  match t.rowCount with
  | 0 => []
  | rows + 1 => t.recordsFrom 0 1 rows

def records (t : Table) : List Record :=
  t.explicitRecords.getD t.derivedRecords

end Table

end TableGraph
