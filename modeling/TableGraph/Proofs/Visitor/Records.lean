import Mathlib.Data.List.Chain
import Mathlib.Data.List.Nodup
import TableGraph.Visitor.Basic
import TableGraph.Proofs.Cursor.Reach
import TableGraph.Proofs.Text.Trimming

/-!
# Records of a table

Where its records are not given, a table is cut in front of each row that has a key, a first cell that is
not blank, but for the first row, where a record starts in any case. What the search for them finds from a
row on is `Divided` into runs (`divided_recordsFrom`); that no row is lost or taken twice follows from that
alone (`Divided.flatMap_rows`). A visit comes to the records in order and to no other scopes
(`visitAll_logged`).
-/

namespace TableGraph

namespace Table

variable {t : Table}

/-! ## Keys -/

/-- Null, or text of nothing but white space. -/
def IsBlank (cell : Json) : Prop :=
  cell = .null ∨ ∃ s, cell = .string s ∧ ∀ c ∈ s.toList, Unicode.isWhiteSpace c = true

/-- The first cell of a row is there and is not blank. -/
def HasKey (t : Table) (row : Nat) : Prop :=
  ∃ cell, t.cell? row 0 = some cell ∧ ¬ IsBlank cell

theorem isFilled_iff {cell : Json} : isFilled cell = true ↔ ¬ IsBlank cell := by
  cases cell with
  | string s =>
    have hempty : (Text.trim s).isEmpty = true ↔ Text.trim s = "" := String.isEmpty_iff
    rw [isFilled, Bool.not_eq_true', ← Bool.not_eq_true, hempty, Text.trim_eq_empty_iff]
    simp [IsBlank]
  | _ => simp [isFilled, IsBlank]

theorem startsRecord_iff {row : Nat} : t.startsRecord row = true ↔ t.HasKey row := by
  simp only [startsRecord, Option.any_eq_true, isFilled_iff, HasKey]

/-! ## Runs of rows -/

/-- A record with a row, where no row but the first has a key. -/
structure IsRun (t : Table) (r : Record) : Prop where
  nonempty : r.first < r.stop
  inside : ∀ row, r.first < row → row < r.stop → ¬ t.HasKey row

/-- The rows up to the stop are divided into runs, each of which but the first starts with a key. -/
inductive Divided (t : Table) (stop : Nat) : Nat → List Record → Prop
  | last {first} (hrun : t.IsRun ⟨first, stop⟩) : Divided t stop first [⟨first, stop⟩]
  | cut {first middle rest} (hrun : t.IsRun ⟨first, middle⟩) (hkey : t.HasKey middle)
      (hrest : Divided t stop middle rest) : Divided t stop first (⟨first, middle⟩ :: rest)

/-- What the search finds when the rows from the start of a record up to the row that is next are a run. -/
theorem divided_recordsFrom {start row : Nat} (h : t.IsRun ⟨start, row⟩) (rows : Nat) :
    t.Divided (row + rows) start (t.recordsFrom start row rows) := by
  induction rows generalizing start row with
  | zero => exact .last h
  | succ rows ih =>
    rw [recordsFrom, Nat.add_succ, ← Nat.succ_add]
    cases hstarts : t.startsRecord row with
    | true =>
      refine .cut h (startsRecord_iff.1 hstarts) (ih ⟨Nat.lt_succ_self row, fun other hlo hhi => ?_⟩)
      exact absurd (Nat.lt_succ_iff.1 hhi) (Nat.not_le.2 hlo)
    | false =>
      refine ih ⟨Nat.lt_succ_of_lt h.nonempty, fun other hlo hhi => ?_⟩
      rcases Nat.lt_succ_iff_lt_or_eq.1 hhi with hlt | rfl
      · exact h.inside other hlo hlt
      · rw [← startsRecord_iff, hstarts]
        exact Bool.false_ne_true

theorem divided_records (h : t.explicitRecords = none) (hrows : 0 < t.rowCount) :
    t.Divided t.rowCount 0 t.records := by
  rw [records, h, Option.getD_none, derivedRecords]
  split
  · rename_i hnone
    exact absurd hnone (Nat.ne_of_gt hrows)
  · rename_i rows hcount
    rw [hcount, Nat.succ_eq_one_add]
    exact divided_recordsFrom ⟨Nat.zero_lt_one, fun row hlo hhi => absurd hhi (Nat.not_lt.2 hlo)⟩ rows

namespace Divided

variable {first stop : Nat} {records : List Record}

theorem first_lt_stop (h : t.Divided stop first records) : first < stop := by
  induction h with
  | last hrun => exact hrun.nonempty
  | cut hrun _ _ ih => exact Nat.lt_trans hrun.nonempty ih

theorem isRun (h : t.Divided stop first records) : ∀ r ∈ records, t.IsRun r := by
  induction h with
  | last hrun => exact List.forall_mem_singleton.2 hrun
  | cut hrun _ _ ih => exact List.forall_mem_cons.2 ⟨hrun, ih⟩

theorem ne_nil (h : t.Divided stop first records) : records ≠ [] := by
  cases h with
  | last | cut => exact List.cons_ne_nil _ _

theorem first_of_mem_head? (h : t.Divided stop first records) : ∀ r ∈ records.head?, r.first = first := by
  intro r hr
  cases h with
  | last | cut =>
    obtain rfl := Option.some.inj hr
    rfl

theorem stop_of_mem_getLast? (h : t.Divided stop first records) : ∀ r ∈ records.getLast?, r.stop = stop := by
  induction h with
  | last =>
    intro r hr
    obtain rfl := Option.some.inj hr
    rfl
  | cut _ _ hrest ih =>
    cases hrest with
    | last | cut => exact ih

theorem isChain (h : t.Divided stop first records) :
    records.IsChain fun r next => next.first = r.stop := by
  induction h with
  | last => exact .singleton _
  | cut _ _ hrest ih => exact List.isChain_cons.2 ⟨hrest.first_of_mem_head?, ih⟩

theorem hasKey_of_mem_tail (h : t.Divided stop first records) : ∀ r ∈ records.tail, t.HasKey r.first := by
  induction h with
  | last => exact nofun
  | cut _ hkey hrest ih =>
    cases hrest with
    | last => exact List.forall_mem_singleton.2 hkey
    | cut => exact List.forall_mem_cons.2 ⟨hkey, ih⟩

theorem flatMap_rows (h : t.Divided stop first records) :
    records.flatMap Record.rows = List.range' first (stop - first) := by
  induction h with
  | last => exact List.append_nil _
  | @cut first middle rest hrun _ hrest ih =>
    have hfirst : first < middle := hrun.nonempty
    have hmiddle := hrest.first_lt_stop
    have hsize : stop - first = (middle - first) + (stop - middle) := by omega
    rw [List.flatMap_cons, ih, hsize, ← List.range'_append_1, Nat.add_sub_cancel' (Nat.le_of_lt hfirst)]
    rfl

end Divided

/-! ## Partitions -/

/-- The rows of a table are divided into runs, if it has any. -/
structure IsPartition (t : Table) (records : List Record) : Prop where
  eq_nil_iff : records = [] ↔ t.rowCount = 0
  starts : ∀ r ∈ records.head?, r.first = 0
  ends : ∀ r ∈ records.getLast?, r.stop = t.rowCount
  adjoin : records.IsChain fun r next => next.first = r.stop
  runs : ∀ r ∈ records, t.IsRun r
  keys : ∀ r ∈ records.tail, t.HasKey r.first

theorem records_of_rowCount (h : t.explicitRecords = none) (hrows : t.rowCount = 0) : t.records = [] := by
  rw [records, h, Option.getD_none, derivedRecords, hrows]

theorem isPartition_records (h : t.explicitRecords = none) : t.IsPartition t.records := by
  rcases Nat.eq_zero_or_pos t.rowCount with hnone | hrows
  · rw [records_of_rowCount h hnone]
    exact ⟨iff_of_true rfl hnone, nofun, nofun, .nil, nofun, nofun⟩
  · have hdivided := divided_records h hrows
    exact
      { eq_nil_iff := iff_of_false hdivided.ne_nil (Nat.ne_of_gt hrows)
        starts := hdivided.first_of_mem_head?
        ends := hdivided.stop_of_mem_getLast?
        adjoin := hdivided.isChain
        runs := hdivided.isRun
        keys := hdivided.hasKey_of_mem_tail }

theorem flatMap_rows_records (h : t.explicitRecords = none) :
    t.records.flatMap Record.rows = List.range t.rowCount := by
  rcases Nat.eq_zero_or_pos t.rowCount with hnone | hrows
  · rw [records_of_rowCount h hnone, hnone]
    rfl
  · rw [(divided_records h hrows).flatMap_rows, Nat.sub_zero, ← List.range_eq_range']

theorem existsUnique_record {records : List Record} {rows : Nat}
    (h : records.flatMap Record.rows = List.range rows) {row : Nat} (hrow : row < rows) :
    ∃! r, r ∈ records ∧ row ∈ r.rows := by
  have hmem : row ∈ records.flatMap Record.rows := h ▸ List.mem_range.2 hrow
  have hnodup : (records.flatMap Record.rows).Nodup := h ▸ List.nodup_range
  obtain ⟨r, hr, hin⟩ := List.mem_flatMap.1 hmem
  refine ⟨r, ⟨hr, hin⟩, fun other hother => ?_⟩
  have : Std.Symm (Function.onFun List.Disjoint Record.rows) :=
    ⟨fun _ _ hdisjoint _ hleft hright => hdisjoint hright hleft⟩
  by_contra hne
  exact (List.nodup_flatMap.1 hnodup).2.forall hother.1 hr hne hother.2 hin

end Table

/-! ## Visits -/

namespace Visitor

/-- A visitor with the scopes that it is told of and its answers. -/
structure Logged (ν : Type) where
  target : ν
  visits : List (Scope × Except TransformError Bool)

variable {ν : Type} [Visitor ν]

/-- Noting the visits changes no answer. -/
instance : Visitor (Logged ν) where
  start v := { v with target := start v.target }
  visit scope v :=
    let (answer, target) := visit scope v.target
    (answer, ⟨target, v.visits ++ [(scope, answer)]⟩)
  finish v :=
    let (answer, target) := finish v.target
    (answer, { v with target := target })

/-- Scopes are visited in order, all of them if after each visit there is to be another. -/
structure Covers (scopes : List Scope) (visits : List (Scope × Except TransformError Bool)) : Prop where
  inOrder : visits.map (·.1) <+: scopes
  complete : (∀ visit ∈ visits, visit.2 = .ok false) → visits.map (·.1) = scopes

theorem Covers.stopped (scope : Scope) (rest : List Scope) {answer : Except TransformError Bool}
    (h : answer ≠ .ok false) : Covers (scope :: rest) [(scope, answer)] :=
  ⟨⟨rest, rfl⟩, fun hall => absurd (hall _ List.mem_cons_self) h⟩

theorem Covers.cons (scope : Scope) {rest : List Scope} {visits : List (Scope × Except TransformError Bool)}
    (h : Covers rest visits) : Covers (scope :: rest) ((scope, .ok false) :: visits) :=
  ⟨(List.prefix_cons_inj scope).2 h.inOrder,
    fun hall => congrArg (scope :: ·) (h.complete (List.forall_mem_cons.1 hall).2)⟩

theorem visitEach_logged (scopes : List Scope) (v : Logged ν) :
    ∃ visits, Covers scopes visits ∧ visitEach scopes v =
      ((visitEach scopes v.target).1, ⟨(visitEach scopes v.target).2, v.visits ++ visits⟩) := by
  induction scopes generalizing v with
  | nil => exact ⟨[], ⟨List.prefix_refl [], fun _ => rfl⟩, by rw [List.append_nil]; rfl⟩
  | cons scope rest ih =>
    have hvisit : visit scope v = ((visit scope v.target).1,
        ⟨(visit scope v.target).2, v.visits ++ [(scope, (visit scope v.target).1)]⟩) := rfl
    rw [visitEach, visitEach, hvisit]
    rcases visit scope v.target with ⟨e | (_ | _), target⟩
    · exact ⟨[(scope, .error e)], .stopped scope rest nofun, rfl⟩
    · obtain ⟨visits, hcovers, hrest⟩ := ih ⟨target, v.visits ++ [(scope, .ok false)]⟩
      refine ⟨_, .cons scope hcovers, hrest.trans ?_⟩
      rw [← List.append_cons]
    · exact ⟨[(scope, .ok true)], .stopped scope rest nofun, rfl⟩

theorem visitAll_logged (scopes : List Scope) (v : ν) :
    let logged := visitAll scopes (⟨v, []⟩ : Logged ν)
    logged.1 = (visitAll scopes v).1 ∧ logged.2.target = (visitAll scopes v).2 ∧
      Covers scopes logged.2.visits := by
  obtain ⟨visits, hcovers, heach⟩ := visitEach_logged scopes (⟨start v, []⟩ : Logged ν)
  have hstart : start (⟨v, []⟩ : Logged ν) = ⟨start v, []⟩ := rfl
  rw [visitAll, visitAll, hstart, heach]
  rcases visitEach scopes (start v) with ⟨e | _, target⟩
  · exact ⟨rfl, rfl, hcovers⟩
  · exact ⟨rfl, rfl, hcovers⟩

end Visitor

open Table Visitor

/-- **The records of a table partition its rows.** Unless they are given, there are records exactly if there
are rows; none is empty, the first starts with the first row, each other where the one before it stops, and
the last stops behind the last row. Each but the first starts with a row that has a key, and no other row of
a record has one. So every row is in exactly one record, and what is visited by records are these in
order, all of them unless a visit stops or fails. -/
theorem derived_records_partition_rows (t : Table) (h : t.explicitRecords = none) :
    t.IsPartition t.records ∧
    t.records.flatMap Record.rows = List.range t.rowCount ∧
    (∀ row < t.rowCount, ∃! r, r ∈ t.records ∧ row ∈ r.rows) ∧
    ∀ {ν : Type} [Visitor ν] (v : ν),
      let logged := visitAll t.recordScopes (⟨v, []⟩ : Logged ν)
      logged.1 = (visitAll t.recordScopes v).1 ∧ logged.2.target = (visitAll t.recordScopes v).2 ∧
        logged.2.visits.map (·.1) <+: t.records.map .record ∧
        ((∀ visit ∈ logged.2.visits, visit.2 = .ok false) →
          logged.2.visits.map (·.1) = t.records.map .record) := by
  have hcover := flatMap_rows_records h
  refine ⟨isPartition_records h, hcover, fun row => existsUnique_record hcover, fun v => ?_⟩
  obtain ⟨hanswer, htarget, hvisits⟩ := visitAll_logged t.recordScopes v
  exact ⟨hanswer, htarget, hvisits.inOrder, hvisits.complete⟩

/-- Null, a row without cells and white space all go on with a record. -/
theorem derived_records_partition_rows_blank :
    let t : Table :=
      ⟨["name"], #[[.string " "], [.null, .string "Carol"], [], [.string "\t"], [.string "Dave"]], none, []⟩
    t.records = [⟨0, 4⟩, ⟨4, 5⟩] ∧ t.IsPartition t.records ∧ ∃! r, r ∈ t.records ∧ 3 ∈ r.rows := by
  intro t
  obtain ⟨hpartition, -, hunique, -⟩ := derived_records_partition_rows t rfl
  exact ⟨by decide +kernel, hpartition, hunique 3 (by decide)⟩

end TableGraph
