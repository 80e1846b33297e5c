import TableGraph.BlankLabel.Rule
import TableGraph.Iri.Repair
import TableGraph.Mapping.Source
import TableGraph.Term

/-!
# Identities of blank nodes

`BlankNodes` remembers, while a transform is in use, which blank node each constant of its trees
stands for, and how many anonymous ones were made. A constant is named once, when it is first needed,
and keeps its identity; an anonymous label is never given out twice.
-/

namespace TableGraph

/-- The place of a node in a transform: the number of its root, and of a property on each level down
to it, the innermost first. -/
abbrev Address := List Nat

/-- The blank nodes named so far: those of constants, by place, and the number of anonymous ones. -/
structure BlankNodes where
  constants : List (Address × BlankId)
  minted : Nat
  deriving DecidableEq, Repr

namespace BlankNodes

def fresh : BlankNodes := ⟨[], 0⟩

/-- The hexadecimal digits of a number, at least so many. -/
def hexDigits (width n : Nat) : List Char :=
  let digits := Nat.toDigits 16 n
  List.replicate (width - digits.length) '0' ++ digits

/-- The label of an anonymous blank node: `b` and 32 digits. -/
def anonymousLabel (n : Nat) : String :=
  String.ofList ('b' :: hexDigits 32 n)

def mint : StateM BlankNodes BlankId := fun blanks =>
  (⟨anonymousLabel blanks.minted⟩, { blanks with minted := blanks.minted + 1 })

/-- Name the blank node of a constant: by the label made of its seed, or anonymously if nothing is
left of it. -/
def name (seed : String) (rule : LabelRule) : StateM BlankNodes BlankId :=
  if (Text.trim seed).isEmpty then mint
  else
    let label := rule.sanitize seed
    if label.isEmpty then mint else pure ⟨label⟩

/-- The blank node of the constant at a place, named if it is needed for the first time. -/
def ofConstant (place : Address) (seed : String) (rule : LabelRule) : StateM BlankNodes BlankId :=
  fun blanks =>
    match blanks.constants.lookup place with
    | some id => (id, blanks)
    | none =>
      let (id, blanks) := name seed rule blanks
      (id, { blanks with constants := (place, id) :: blanks.constants })

/-- The blank node of a cell: by its row and what it reads, or anonymously if it reads nothing that
has a name. -/
def ofCell (cell : CellSource) (row : Nat) : StateM BlankNodes BlankId :=
  match cell.kind, cell.column.bind Iri.ofText? with
  | .rowIndex, _ => pure ⟨"row_" ++ toString row⟩
  | .recordIndex, _ => pure ⟨"record_" ++ toString row⟩
  | _, some name => pure ⟨name ++ "_" ++ toString row⟩
  | _, none => mint

end BlankNodes

end TableGraph
