import TableGraph.Transform

/-!
# Rows within reach

From a cursor, only some rows can ever be read: the row that it stands on, or those of the record over
which it moves. Whatever an evaluation does with it, handing it down, moving it on, walking it or leaving
it, no other rows come within reach (`Cursor.Within`); at the start they are those of the scope.
-/

namespace TableGraph

namespace Cursor

/-- No other rows than these are read from a cursor on: it stands on one of them, or it moves over a
record of them, and if it has a position, on one of the record. -/
def Within (rows : Nat → Prop) : Cursor → Prop
  | .idle => True
  | .row r => rows r
  | .record whole position | .perRow whole position =>
    (∀ r ∈ whole.rows, rows r) ∧ ∀ r ∈ position, r ∈ whole.rows

variable {rows : Nat → Prop} {c : Cursor}

theorem Within.row? (h : c.Within rows) {r : Nat} (hr : c.row? = some r) : rows r := by
  cases c with
  | idle => cases hr
  | row own =>
    obtain rfl := Option.some.inj hr
    exact h
  | record whole position | perRow whole position => exact h.1 r (h.2 r hr)

theorem Within.forObject (h : c.Within rows) : c.forObject.Within rows := by
  cases c with
  | idle => trivial
  | row r => exact h
  | record whole position | perRow whole position =>
    cases position with
    | none => exact ⟨h.1, nofun⟩
    | some r => exact h.1 r (h.2 r rfl)

theorem Within.reset (h : c.Within rows) : c.reset.Within rows := by
  cases c with
  | idle | row r => exact h
  | record whole position | perRow whole position => exact ⟨h.1, nofun⟩

theorem Within.next (h : c.Within rows) : c.next.2.Within rows := by
  have hahead {whole : Record} {position : Option Nat} (hposition : ∀ r ∈ position, r ∈ whole.rows)
      (hlt : rowAfter whole position < whole.stop) : rowAfter whole position ∈ whole.rows := by
    rw [Record.mem_rows]
    cases position with
    | none => exact ⟨Nat.le_refl _, hlt⟩
    | some r =>
      have hr := Record.mem_rows.1 (hposition r rfl)
      exact ⟨by simp only [rowAfter]; omega, hlt⟩
  cases c with
  | idle | row r => exact h
  | record whole position | perRow whole position =>
    by_cases hlt : rowAfter whole position < whole.stop
    · rw [next_of_lt rfl hlt]
      refine ⟨h.1, fun r hr => ?_⟩
      obtain rfl := Option.some.inj hr
      exact hahead h.2 hlt
    · rw [next_of_le rfl (Nat.not_lt.1 hlt)]
      exact h.reset

theorem Within.of_mem_walkFor (h : c.Within rows) {n : Nat} {d : Cursor} (hd : d ∈ c.walkFor n) :
    d.Within rows := by
  induction n generalizing c with
  | zero => cases hd
  | succ n ih =>
    have hnext := h.next
    rw [walkFor] at hd
    rcases hc : c.next with ⟨_ | _, c'⟩
    · rw [hc] at hd
      cases hd
    · rw [hc] at hd hnext
      rcases List.mem_cons.1 hd with rfl | hd
      · exact hnext
      · exact ih hnext hd

theorem Within.of_mem_walk (h : c.Within rows) {d : Cursor} (hd : d ∈ c.walk) : d.Within rows :=
  h.of_mem_walkFor hd

theorem Within.leaveFor (h : c.Within rows) (n : Nat) : (c.leaveFor n).Within rows := by
  induction n generalizing c with
  | zero => exact h.next
  | succ n ih =>
    have hnext := h.next
    rw [Cursor.leaveFor]
    rcases hc : c.next with ⟨_ | _, c'⟩
    · rw [hc] at hnext
      exact hnext
    · rw [hc] at hnext
      exact ih hnext

theorem Within.leave (h : c.Within rows) : c.leave.Within rows :=
  h.leaveFor _

end Cursor

/-- The rows of a scope. -/
def Scope.Contains : Scope → Nat → Prop
  | .row r, other => other = r
  | .record r, other => other ∈ r.rows

theorem Scope.within_cursor {scope : Scope} {rows : Nat → Prop} (h : ∀ row, scope.Contains row → rows row) :
    scope.cursor.Within rows := by
  cases scope with
  | row r => exact h r rfl
  | record r => exact ⟨h, nofun⟩

end TableGraph
