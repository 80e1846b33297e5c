import TableGraph.Proofs.Cursor.Reach

/-!
# Walks over a record

A cursor over a record is moved on, reset and cleared in any order. Until it is cleared it stays over the
record (`record?_afterCalls`), and where it stands is a row of the record (`Within.afterCalls`). From before
the record, moving on comes to its rows one after the other and then back before the record: after so many
moves a cursor is so far from the first row (`HasMoved`), until no row is left. Handing cursors down, moved or
not, leads neither to a cursor without rows nor to rows out of reach (`HandedDown.ne_idle`,
`HandedDown.within`).
-/

namespace TableGraph

namespace Cursor

inductive Call
  | next
  | reset
  | clear
  deriving DecidableEq, Repr

def perform (c : Cursor) : Call → Cursor
  | .next => c.next.2
  | .reset => c.reset
  | .clear => .idle

def afterCalls (c : Cursor) (calls : List Call) : Cursor :=
  calls.foldl perform c

/-- The cursors that come of one by moving on, resetting and handing down. -/
inductive HandedDown (root : Cursor) : Cursor → Prop
  | root : HandedDown root root
  | next {c} (h : HandedDown root c) : HandedDown root c.next.2
  | reset {c} (h : HandedDown root c) : HandedDown root c.reset
  | forObject {c} (h : HandedDown root c) : HandedDown root c.forObject

variable {c : Cursor} {r : Record} {row : Nat} {rows : Nat → Prop}

/-! ## One call -/

theorem record?_reset (c : Cursor) : c.reset.record? = c.record? := by
  cases c <;> rfl

theorem record?_next (c : Cursor) : c.next.2.record? = c.record? := by
  rw [next]
  split
  · exact record?_moveTo _ _
  · exact record?_reset _

theorem reset_of_row?_eq_none (h : c.row? = none) : c.reset = c := by
  cases c with
  | idle | row => rfl
  | record whole position | perRow whole position =>
    obtain rfl : position = none := h
    rfl

theorem Within.perform (h : c.Within rows) (call : Call) : (c.perform call).Within rows := by
  cases call with
  | next => exact h.next
  | reset => exact h.reset
  | clear => trivial

theorem record?_perform {call : Call} (h : call ≠ .clear) : (c.perform call).record? = c.record? := by
  cases call with
  | next => exact record?_next c
  | reset => exact record?_reset c
  | clear => exact absurd rfl h

theorem perform_idle (call : Call) : idle.perform call = .idle := by
  cases call <;> rfl

/-! ## Many calls -/

theorem afterCalls_append (c : Cursor) (before after : List Call) :
    c.afterCalls (before ++ after) = (c.afterCalls before).afterCalls after :=
  List.foldl_append

theorem Within.afterCalls (h : c.Within rows) (calls : List Call) : (c.afterCalls calls).Within rows := by
  induction calls generalizing c with
  | nil => exact h
  | cons call rest ih => exact ih (h.perform call)

theorem record?_afterCalls {calls : List Call} (h : .clear ∉ calls) :
    (c.afterCalls calls).record? = c.record? := by
  induction calls generalizing c with
  | nil => rfl
  | cons call rest ih =>
    rw [List.mem_cons, not_or] at h
    exact (ih h.2).trans (record?_perform (Ne.symm h.1))

theorem afterCalls_idle (calls : List Call) : idle.afterCalls calls = .idle := by
  induction calls with
  | nil => rfl
  | cons call rest ih =>
    change (idle.perform call).afterCalls rest = .idle
    rw [perform_idle, ih]

theorem afterCalls_of_clear {calls : List Call} (h : .clear ∈ calls) : c.afterCalls calls = .idle := by
  obtain ⟨before, after, rfl⟩ := List.append_of_mem h
  rw [afterCalls_append]
  exact afterCalls_idle after

/-! ## Walking -/

/-- A cursor has made so many moves over a record, from where it was before the record. -/
structure HasMoved (start : Cursor) (r : Record) (moves : Nat) (c : Cursor) : Prop where
  record? : c.record? = some r
  ahead : rowAfter r c.row? = r.first + moves
  reset : c.reset = start
  moveTo : ∀ row, c.moveTo row = start.moveTo row

theorem hasMoved_zero (hr : c.record? = some r) (hrow : c.row? = none) : c.HasMoved r 0 c where
  record? := hr
  ahead := by rw [hrow, rowAfter, Nat.add_zero]
  reset := reset_of_row?_eq_none hrow
  moveTo _ := rfl

namespace HasMoved

variable {start : Cursor} {moves : Nat}

/-- Where rows are left, the next move goes to the row that is as far from the first as moves were made. -/
theorem next_of_lt (h : start.HasMoved r moves c) (hlt : moves < r.size) :
    c.next = (true, start.moveTo (r.first + moves)) := by
  have hsize : r.size = r.stop - r.first := rfl
  have hahead := h.ahead
  rw [Cursor.next_of_lt h.record? (by omega), hahead, h.moveTo]

theorem next_of_size (h : start.HasMoved r r.size c) : c.next = (false, start) := by
  have hsize : r.size = r.stop - r.first := rfl
  have hahead := h.ahead
  rw [next_of_le h.record? (by omega), h.reset]

theorem succ (h : start.HasMoved r moves c) (hlt : moves < r.size) :
    start.HasMoved r (moves + 1) c.next.2 := by
  have hnext : c.next.2 = c.moveTo (r.first + moves) := by
    rw [h.next_of_lt hlt, h.moveTo]
  rw [hnext]
  exact
    { record? := (record?_moveTo c _).trans h.record?
      ahead := by rw [row?_moveTo h.record?, rowAfter, Nat.add_assoc]
      reset := (reset_moveTo c _).trans h.reset
      moveTo := fun row => (moveTo_moveTo c _ row).trans (h.moveTo row) }

end HasMoved

theorem hasMoved_replicate (hr : c.record? = some r) (hrow : c.row? = none) {moves : Nat}
    (hle : moves ≤ r.size) : c.HasMoved r moves (c.afterCalls (.replicate moves .next)) := by
  induction moves with
  | zero => exact hasMoved_zero hr hrow
  | succ moves ih =>
    rw [List.replicate_succ', afterCalls_append]
    exact (ih (Nat.le_of_succ_le hle)).succ hle

/-- Moving on comes to the rows of a record one after the other, and then back to where it began. -/
def Walks (c : Cursor) (r : Record) : Prop :=
  (∀ k < r.size, (c.afterCalls (.replicate k .next)).next = (true, c.moveTo (r.first + k)) ∧
    (c.moveTo (r.first + k)).row? = some (r.first + k)) ∧
  (c.afterCalls (.replicate r.size .next)).next = (false, c)

theorem walks_of_row?_eq_none (hr : c.record? = some r) (hrow : c.row? = none) : c.Walks r := by
  refine ⟨fun k hk => ⟨?_, row?_moveTo hr _⟩, ?_⟩
  · exact (hasMoved_replicate hr hrow (Nat.le_of_lt hk)).next_of_lt hk
  · exact (hasMoved_replicate hr hrow (Nat.le_refl _)).next_of_size

/-! ## Handing down -/

theorem forObject_of_row (h : c.row? = some row) : c.forObject = .row row := by
  rw [forObject, h]

theorem forObject_of_record (hr : c.record? = some r) (hrow : c.row? = none) :
    c.forObject = .perRow r none := by
  rw [forObject, hrow, hr]

theorem next_ne_idle (h : c ≠ .idle) : c.next.2 ≠ .idle := by
  unfold next
  split <;> cases c <;> simp_all [moveTo, reset]

theorem reset_ne_idle (h : c ≠ .idle) : c.reset ≠ .idle := by
  cases c <;> simp_all [reset]

theorem forObject_ne_idle (h : c ≠ .idle) : c.forObject ≠ .idle := by
  cases hrow : c.row? with
  | some row =>
    rw [forObject_of_row hrow]
    nofun
  | none =>
    cases c with
    | idle => exact absurd rfl h
    | row => cases hrow
    | record r | perRow r =>
      rw [forObject_of_record rfl hrow]
      nofun

namespace HandedDown

variable {root : Cursor}

theorem within (h : HandedDown root c) (hroot : root.Within rows) : c.Within rows := by
  induction h with
  | root => exact hroot
  | next _ ih => exact ih.next
  | reset _ ih => exact ih.reset
  | forObject _ ih => exact ih.forObject

theorem ne_idle (h : HandedDown root c) (hroot : root ≠ .idle) : c ≠ .idle := by
  induction h with
  | root => exact hroot
  | next _ ih => exact next_ne_idle ih
  | reset _ ih => exact reset_ne_idle ih
  | forObject _ ih => exact forObject_ne_idle ih

end HandedDown

end Cursor

open Cursor

theorem Scope.cursor_ne_idle (scope : Scope) : scope.cursor ≠ .idle := by
  cases scope <;> nofun

/-- **Cursors walk their records.** Take the cursor over a record as a whole, or the one that it hands down to
take the rows one by one, after whatever calls. Where it stands is a row of the record, so that no row
that it tries is past the largest number if the stop is not. Once cleared it has nothing to evaluate.
Until then it hands down the row on which it stands; standing on none it hands down its record, to be taken
row by row, and walks the record, each row in its turn, to stand on none again. A row is handed down as it
is. So whatever is handed down below the cursor of a scope has rows to evaluate, and no others than those of
the scope. -/
theorem cursors_walk_their_records (r : Record) :
    (∀ start, start = .record r none ∨ start = (Cursor.record r none).forObject → ∀ calls,
      let c := start.afterCalls calls
      (∀ row ∈ c.row?,
        r.first ≤ row ∧ row < r.stop ∧ (r.stop < UInt64.size → row + 1 < UInt64.size)) ∧
      (.clear ∈ calls → c = .idle) ∧
      (.clear ∉ calls →
        (∀ row ∈ c.row?, c.forObject = .row row) ∧
        (c.row? = none → c.forObject = .perRow r none ∧ c.Walks r))) ∧
    (∀ row, (Cursor.row row).forObject = .row row) ∧
    ∀ (scope : Scope) (c : Cursor), HandedDown scope.cursor c →
      c ≠ .idle ∧ ∀ row ∈ c.row?, scope.Contains row := by
  refine ⟨fun start hstart calls => ?_, fun row => rfl, fun scope c h => ?_⟩
  · intro c
    have hrecord : start.record? = some r ∧ start.Within (· ∈ r.rows) := by
      rcases hstart with rfl | rfl <;> exact ⟨rfl, fun _ h => h, nofun⟩
    have hwithin := hrecord.2.afterCalls calls
    refine ⟨fun row hrow => ?_, afterCalls_of_clear, fun hclear => ?_⟩
    · obtain ⟨hlo, hhi⟩ := Record.mem_rows.1 (hwithin.row? hrow)
      exact ⟨hlo, hhi, fun hstop => Nat.lt_of_le_of_lt hhi hstop⟩
    · have hover : c.record? = some r := (record?_afterCalls hclear).trans hrecord.1
      exact ⟨fun row hrow => forObject_of_row hrow, fun hrow =>
        ⟨forObject_of_record hover hrow, walks_of_row?_eq_none hover hrow⟩⟩
  · refine ⟨h.ne_idle scope.cursor_ne_idle, fun row hrow => ?_⟩
    exact (h.within (Scope.within_cursor fun _ hrow => hrow)).row? hrow

/-- The last record of all stops at the largest number. From its last row the cursor goes back before it and
can walk it again. -/
theorem cursors_walk_their_records_last :
    let r : Record := ⟨UInt64.size - 3, UInt64.size - 1⟩
    let last := (Cursor.record r none).forObject.afterCalls [.next, .next]
    let back := (Cursor.record r none).forObject.afterCalls [.next, .next, .next]
    (last.row? = some (UInt64.size - 2) ∧ r.stop < UInt64.size ∧ back.row? = none) ∧
      UInt64.size - 2 + 1 < UInt64.size ∧ last.forObject = .row (UInt64.size - 2) ∧ back.Walks r := by
  intro r last back
  have hlast : last.row? = some (UInt64.size - 2) := by decide
  have hstop : r.stop < UInt64.size := by decide
  have hback : back.row? = none := by decide
  obtain ⟨hbounds, -, hdown⟩ := (cursors_walk_their_records r).1 _ (.inr rfl) [.next, .next]
  obtain ⟨-, -, hagain⟩ := (cursors_walk_their_records r).1 _ (.inr rfl) [.next, .next, .next]
  exact ⟨⟨hlast, hstop, hback⟩, (hbounds _ hlast).2.2 hstop, (hdown (by decide)).1 _ hlast,
    ((hagain (by decide)).2 hback).2⟩

end TableGraph
