/-!
# Records and cursors

A `Record` is a run of rows that belong together. A `Cursor` says on which rows a node is evaluated:
none, one row, a record as a whole, or a record row by row. A cursor on a record may stand on one of
its rows; `next` moves it on and takes it off after the last, and `walk` lists the cursors that `next`
passes through: one on each row of the record, in order (`walk_record`, `walk_perRow`). `leave` is where
a walk ends: before the record again (`leave_record`).
-/

namespace TableGraph

/-- The rows from `first` up to but not including `stop`. -/
structure Record where
  first : Nat
  stop : Nat
  deriving DecidableEq, Repr

namespace Record

def isEmpty (r : Record) : Bool := r.stop ≤ r.first

def size (r : Record) : Nat := r.stop - r.first

def rows (r : Record) : List Nat := List.range' r.first r.size

theorem mem_rows {r : Record} {row : Nat} : row ∈ r.rows ↔ r.first ≤ row ∧ row < r.stop := by
  simp only [rows, size, List.mem_range'_1]
  omega

end Record

/-- The rows on which a node is evaluated, and where among them the evaluation stands. -/
inductive Cursor
  /-- No row. -/
  | idle
  /-- A single row. -/
  | row (row : Nat)
  /-- A record as a whole. -/
  | record (record : Record) (position : Option Nat)
  /-- Every row of a record on its own. -/
  | perRow (record : Record) (position : Option Nat)
  deriving DecidableEq, Repr

namespace Cursor

def row? : Cursor → Option Nat
  | .idle => none
  | .row r => some r
  | .record _ position | .perRow _ position => position

def record? : Cursor → Option Record
  | .record r _ | .perRow r _ => some r
  | _ => none

def isRecordMode (c : Cursor) : Bool := c.record?.isSome

/-- Whether a cursor takes every row of a record on its own. -/
def isPerRow : Cursor → Bool
  | .perRow .. => true
  | _ => false

def isRowMode (c : Cursor) : Bool := c.row?.isSome

def isSet : Cursor → Bool
  | .idle => false
  | _ => true

/-- The cursor of an object below a subject. A subject that stands on a row hands the row down; one
that stands before a record hands the record down, to be taken row by row. -/
def forObject (parent : Cursor) : Cursor :=
  match parent.row?, parent.record? with
  | some r, _ => .row r
  | none, some whole => .perRow whole none
  | none, none => .idle

/-- Put a cursor over a record on one of its rows. -/
def moveTo (row : Nat) : Cursor → Cursor
  | .record r _ => .record r (some row)
  | .perRow r _ => .perRow r (some row)
  | c => c

/-- Take a cursor off its row, so that the record can be walked again. -/
def reset : Cursor → Cursor
  | .record r _ => .record r none
  | .perRow r _ => .perRow r none
  | c => c

/-- The row after a position: the first of the record if there is no position. -/
def rowAfter (r : Record) : Option Nat → Nat
  | none => r.first
  | some current => current + 1

def nextRow? (c : Cursor) : Option Nat :=
  c.record?.bind fun r =>
    let ahead := rowAfter r c.row?
    if ahead < r.stop then some ahead else none

/-- Move to the next row of a record, and say whether there is one. -/
def next (c : Cursor) : Bool × Cursor :=
  match c.nextRow? with
  | some ahead => (true, c.moveTo ahead)
  | none => (false, c.reset)

/-- How many times a cursor can still move to a row. -/
def remaining (c : Cursor) : Nat :=
  match c.record? with
  | some r => r.stop - rowAfter r c.row?
  | none => 0

/-- The cursors that at most so many moves pass through, while there is a next row. -/
def walkFor : Nat → Cursor → List Cursor
  | 0, _ => []
  | moves + 1, c =>
    match c.next with
    | (true, c) => c :: walkFor moves c
    | (false, _) => []

/-- The cursors that moving on passes through, one for each row still ahead. -/
def walk (c : Cursor) : List Cursor :=
  walkFor c.remaining c

/-- The cursor after at most so many moves and the one that finds no next row. -/
def leaveFor : Nat → Cursor → Cursor
  | 0, c => c.next.2
  | moves + 1, c =>
    match c.next with
    | (true, c) => leaveFor moves c
    | (false, c) => c

/-- The cursor that moving on ends with, when no row is ahead any more. -/
def leave (c : Cursor) : Cursor :=
  leaveFor c.remaining c

/-! ## The rows of a walk -/

theorem next_of_lt {c : Cursor} {r : Record} (hc : c.record? = some r)
    (h : rowAfter r c.row? < r.stop) : c.next = (true, c.moveTo (rowAfter r c.row?)) := by
  simp [next, nextRow?, hc, h]

theorem next_of_le {c : Cursor} {r : Record} (hc : c.record? = some r)
    (h : r.stop ≤ rowAfter r c.row?) : c.next = (false, c.reset) := by
  simp [next, nextRow?, hc, Nat.not_lt.2 h]

theorem record?_moveTo (c : Cursor) (row : Nat) : (c.moveTo row).record? = c.record? := by
  cases c <;> rfl

theorem row?_moveTo {c : Cursor} {r : Record} (hc : c.record? = some r) (row : Nat) :
    (c.moveTo row).row? = some row := by
  cases c <;> simp_all [moveTo, record?, row?]

theorem moveTo_moveTo (c : Cursor) (a b : Nat) : (c.moveTo a).moveTo b = c.moveTo b := by
  cases c <;> rfl

theorem reset_moveTo (c : Cursor) (row : Nat) : (c.moveTo row).reset = c.reset := by
  cases c <;> rfl

theorem walkFor_eq_map {c : Cursor} {r : Record} (hc : c.record? = some r) (n : Nat)
    (hn : n = r.stop - rowAfter r c.row?) :
    c.walkFor n = (List.range' (rowAfter r c.row?) n).map fun row => c.moveTo row := by
  induction n generalizing c with
  | zero => rfl
  | succ n ih =>
    have hnext := next_of_lt hc (by omega)
    have hrow := row?_moveTo hc (rowAfter r c.row?)
    rw [List.range'_succ, List.map_cons]
    simp only [walkFor, hnext, List.cons.injEq, true_and]
    rw [ih (by rw [record?_moveTo, hc]) (by rw [hrow]; simp only [rowAfter] at hn ⊢; omega), hrow]
    simp [moveTo_moveTo, rowAfter]

theorem leaveFor_eq_reset {c : Cursor} {r : Record} (hc : c.record? = some r) (n : Nat)
    (hn : n = r.stop - rowAfter r c.row?) : c.leaveFor n = c.reset := by
  induction n generalizing c with
  | zero => rw [leaveFor, next_of_le hc (by omega)]
  | succ n ih =>
    have hnext := next_of_lt hc (by omega)
    have hrow := row?_moveTo hc (rowAfter r c.row?)
    simp only [leaveFor, hnext]
    rw [ih (by rw [record?_moveTo, hc]) (by rw [hrow]; simp only [rowAfter] at hn ⊢; omega),
      reset_moveTo]

theorem walk_record (r : Record) :
    (record r none).walk = r.rows.map fun row => record r (some row) :=
  walkFor_eq_map rfl _ rfl

theorem walk_perRow (r : Record) :
    (perRow r none).walk = r.rows.map fun row => perRow r (some row) :=
  walkFor_eq_map rfl _ rfl

theorem leave_record (r : Record) : (record r none).leave = record r none :=
  leaveFor_eq_reset rfl _ rfl

end Cursor

end TableGraph
