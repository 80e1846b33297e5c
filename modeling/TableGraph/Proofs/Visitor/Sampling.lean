import TableGraph.Proofs.Visitor.Batches
import TableGraph.Visitor.Preview

/-!
# Samples

A preview takes in rows or records until there are as many as its limit, and passes over the others. Its
graph refuses nothing, so no evaluation fails in it: a visit of what it takes in adds the triples that
the transform emits there (`Preview.visit_of_room`), and visits, told to stop or not, leave it with the
triples of the first rows or records (`Preview.visits_eq`).
-/

namespace TableGraph

open Visitor (visitEach visitAll)

namespace Preview

/-- Visit scopes in order, whatever the visits answer. -/
def visits : List Scope → Preview → List (Except TransformError Bool) × Preview
  | [], p => ([], p)
  | scope :: rest, p =>
    let (answer, p) := p.visit scope
    let (answers, p) := visits rest p
    (answer :: answers, p)

/-- The scopes that a preview still takes in. -/
def sample (p : Preview) (scopes : List Scope) : List Scope :=
  if p.sampleLimit = 0 then scopes else scopes.take (p.sampleLimit - p.count)

/-- The preview with the triples that its transform emits in scopes. -/
def collected (p : Preview) (scopes : List Scope) : Preview :=
  let emitted := p.transform.collectParts p.evaluate scopes p.pass.blanks
  { p with
    pass := ⟨{ p.graph with triples := p.graph.triples ++ emitted.1.flatten.flatten.toArray }, emitted.2⟩
    count := p.count + scopes.length }

theorem isEnough_iff {p : Preview} : p.isEnough = true ↔ 0 < p.sampleLimit ∧ p.sampleLimit ≤ p.count := by
  rw [isEnough, Bool.and_eq_true, decide_eq_true_eq, decide_eq_true_eq]

theorem toList_announce (t : Transform) (g : Graph) : (t.announce g).toList = g.toList := by
  unfold Transform.announce TripleSink.announceAll
  induction t.prefixMap generalizing g with
  | nil => rfl
  | cons entry rest ih => exact ih (g.addPrefix entry.1 entry.2)

/-! ## Collecting -/

section
variable (p : Preview) (scope : Scope) (rest : List Scope)

theorem collected_nil : p.collected [] = p := by
  have hgraph : (⟨p.graph.triples ++ [].toArray, p.graph.prefixes⟩ : Graph) = p.graph := by
    rw [Array.append_empty]
  exact congrArg (fun g : Graph => { p with pass := ⟨g, p.pass.blanks⟩ }) hgraph

theorem collected_cons : (p.collected [scope]).collected rest = p.collected (scope :: rest) := by
  have hcons := p.transform.collectParts_cons p.evaluate scope
  have hnone := p.transform.collectParts_nil p.evaluate
  simp only [collected, graph, hcons, hnone]
  simp [Nat.add_comm, Nat.add_left_comm]

theorem toList_graph_collected (scopes : List Scope) :
    (p.collected scopes).graph.toList =
      p.graph.toList ++
        (p.transform.collectParts p.evaluate scopes p.pass.blanks).1.flatten.flatten := by
  simp [collected, graph, Graph.toList]

theorem sample_of_isEnough (scopes : List Scope) (h : p.isEnough = true) : p.sample scopes = [] := by
  obtain ⟨hlimit, hcount⟩ := isEnough_iff.1 h
  rw [sample, if_neg (by omega), Nat.sub_eq_zero_of_le hcount, List.take_zero]

theorem sample_of_room (h : p.isEnough = false) :
    p.sample (scope :: rest) = scope :: (p.collected [scope]).sample rest := by
  have hroom : ¬ (0 < p.sampleLimit ∧ p.sampleLimit ≤ p.count) := by
    rw [← isEnough_iff, h]
    exact Bool.false_ne_true
  change (if p.sampleLimit = 0 then _ else _) =
    _ :: (if p.sampleLimit = 0 then rest else rest.take (p.sampleLimit - (p.count + 1)))
  split
  · rfl
  · have hleft : p.sampleLimit - p.count = (p.sampleLimit - (p.count + 1)) + 1 := by omega
    rw [hleft, List.take_succ_cons]

/-! ## Visits -/

theorem visit_of_isEnough (h : p.isEnough = true) : p.visit scope = (.ok true, p) := by
  rw [visit, if_pos h]

theorem visit_of_room (h : p.isEnough = false) : p.visit scope = (.ok false, p.collected [scope]) := by
  obtain ⟨terms, happly⟩ := p.transform.apply_graph p.evaluate scope p.graph p.pass.blanks
  have hpass : p.pass = ⟨p.graph, p.pass.blanks⟩ := rfl
  have hcons := p.transform.collectParts_cons p.evaluate scope []
  have hnone := p.transform.collectParts_nil p.evaluate
  rw [visit, h, hpass, happly]
  simp [collected, hcons, hnone]

end

/-- Visits are told to stop beyond the limit, and not before; those told so change nothing. -/
theorem visits_eq (scopes : List Scope) (p : Preview) :
    p.visits scopes =
      ((List.range' (p.count + 1) scopes.length).map fun i => .ok (0 < p.sampleLimit && p.sampleLimit < i),
        p.collected (p.sample scopes)) := by
  induction scopes generalizing p with
  | nil =>
    have hsample : p.sample [] = [] := by simp [sample]
    rw [visits, hsample, collected_nil]
    rfl
  | cons scope rest ih =>
    rw [visits, List.length_cons, List.range'_succ, List.map_cons]
    cases henough : p.isEnough with
    | true =>
      obtain ⟨hlimit, hcount⟩ := isEnough_iff.1 henough
      have hstops (i : Nat) (h : p.count < i) : (0 < p.sampleLimit && p.sampleLimit < i) = true := by
        rw [Bool.and_eq_true, decide_eq_true_eq, decide_eq_true_eq]
        exact ⟨hlimit, Nat.lt_of_le_of_lt hcount h⟩
      have hall (first : Nat) (h : p.count < first) : ((List.range' first rest.length).map fun i =>
            (.ok (0 < p.sampleLimit && p.sampleLimit < i) : Except TransformError Bool)) =
          List.replicate rest.length (.ok true) := by
        rw [List.map_eq_replicate_iff.2, List.length_range']
        intro i hi
        rw [hstops i (Nat.lt_of_lt_of_le h (List.mem_range'_1.1 hi).1)]
      have hnow := Nat.lt_succ_self p.count
      rw [visit_of_isEnough p scope henough, hstops _ hnow, hall _ (Nat.lt_succ_of_lt hnow)]
      dsimp only
      rw [ih p, hall _ hnow, sample_of_isEnough p _ henough, sample_of_isEnough p _ henough]
    | false =>
      have hstop : (0 < p.sampleLimit && p.sampleLimit < p.count + 1) = false := by
        rw [← henough, isEnough]
        simp only [Nat.lt_succ_iff]
      rw [visit_of_room p scope henough, sample_of_room p scope rest henough, hstop,
        ← collected_cons p scope ((p.collected [scope]).sample rest)]
      dsimp only
      rw [ih (p.collected [scope])]
      rfl

/-- A visit that stops when it is told to leaves the preview as the visits of all would. -/
theorem visitEach_eq (scopes : List Scope) (p : Preview) :
    visitEach scopes p = (.ok (), p.collected (p.sample scopes)) := by
  induction scopes generalizing p with
  | nil =>
    have hsample : p.sample [] = [] := by simp [sample]
    rw [visitEach, hsample, collected_nil]
  | cons scope rest ih =>
    have hvisit : Visitor.visit scope p = p.visit scope := rfl
    rw [visitEach, hvisit]
    cases henough : p.isEnough with
    | true => rw [visit_of_isEnough p scope henough, sample_of_isEnough p _ henough, collected_nil]
    | false =>
      rw [visit_of_room p scope henough, sample_of_room p scope rest henough,
        ← collected_cons p scope ((p.collected [scope]).sample rest)]
      exact ih (p.collected [scope])

theorem visits_of_new {p : Preview} (hcount : p.count = 0) (hgraph : p.graph.toList = [])
    (scopes : List Scope) :
    let taken := if p.sampleLimit = 0 then scopes.length else min scopes.length p.sampleLimit
    let emitted := p.transform.collectParts p.evaluate (scopes.take taken) p.pass.blanks
    let run := p.visits scopes
    run.1 = (List.range' 1 scopes.length).map (fun i => .ok (0 < p.sampleLimit && p.sampleLimit < i)) ∧
      run.2.count = taken ∧ run.2.graph.toList = emitted.1.flatten.flatten ∧
      run.2.pass.blanks = emitted.2 := by
  intro taken emitted run
  have hsample : p.sample scopes = scopes.take taken := by
    rw [sample, hcount, Nat.sub_zero]
    by_cases hlimit : p.sampleLimit = 0
    · simp [taken, hlimit]
    · simp only [taken, hlimit, if_false]
      rw [Nat.min_comm, ← List.take_take, List.take_length]
  have htaken : (scopes.take taken).length = taken := by
    rw [List.length_take, Nat.min_eq_left]
    simp only [taken]
    split <;> omega
  have hrun : run = _ := visits_eq scopes p
  rw [hcount, hsample] at hrun
  rw [hrun]
  refine ⟨rfl, ?_, ?_, rfl⟩
  · change p.count + (scopes.take taken).length = taken
    rw [hcount, htaken, Nat.zero_add]
  · rw [toList_graph_collected, hgraph, List.nil_append]

end Preview

/-- **A preview collects what the transform emits in the first rows or records.** Of a new preview, told
the prefixes or not, every visit returns, and says to stop exactly if there were as many visits before as
a limit allows. It counts the scopes up to the limit, all of them without one, and its graph holds what
the roots emit in these, in order, with the blank nodes that are named on the way. A whole visit returns
and leaves the same; so a preview of a table is one of its first rows, or of its first records. -/
theorem preview_collects_first (t : Transform) (evaluate : Evaluator) (config : Config)
    (blanks : BlankNodes) :
    let limit := config.sampleLimit
    let taken (visited : Nat) := if limit = 0 then visited else min visited limit
    let fresh := Preview.new t evaluate config blanks
    let emitted (scopes : List Scope) := t.collectParts evaluate scopes blanks
    (∀ scopes : List Scope, ∀ p ∈ [fresh, Visitor.start fresh],
      let run := p.visits scopes
      run.1 = (List.range' 1 scopes.length).map (fun i => .ok (0 < limit && limit < i)) ∧
        run.2.count = taken scopes.length ∧
        run.2.graph.toList = (emitted (scopes.take (taken scopes.length))).1.flatten.flatten ∧
        run.2.pass.blanks = (emitted (scopes.take (taken scopes.length))).2) ∧
    (∀ scopes : List Scope, visitAll scopes fresh = (.ok (), ((Visitor.start fresh).visits scopes).2)) ∧
    ∀ table : Table,
      let rows := (visitAll table.rowScopes fresh).2
      let records := (visitAll table.recordScopes fresh).2
      rows.count = taken table.rowCount ∧
        rows.graph.toList =
          (emitted ((List.range (taken table.rowCount)).map .row)).1.flatten.flatten ∧
        records.count = taken table.records.length ∧
        records.graph.toList =
          (emitted ((table.records.take (taken table.records.length)).map .record)).1.flatten.flatten := by
  intro limit taken fresh emitted
  have hnone : (Visitor.start fresh).graph.toList = [] := Preview.toList_announce t Graph.empty
  have hfirst (scopes : List Scope) := Preview.visits_of_new (p := Visitor.start fresh) rfl hnone scopes
  have hall (scopes : List Scope) :
      visitAll scopes fresh = (.ok (), ((Visitor.start fresh).visits scopes).2) := by
    rw [visitAll, Preview.visitEach_eq, Preview.visits_eq]
    rfl
  refine ⟨fun scopes p hp => ?_, hall, fun table => ?_⟩
  · rcases List.mem_pair.1 hp with rfl | rfl
    · exact Preview.visits_of_new rfl rfl scopes
    · exact hfirst scopes
  · have htaken (visited : Nat) : min (taken visited) visited = taken visited := by
      simp only [taken]
      split <;> omega
    have hrowLength : table.rowScopes.length = table.rowCount := by
      rw [Table.rowScopes, List.length_map, List.length_range]
    have hrecordLength : table.recordScopes.length = table.records.length := List.length_map _
    have hrows : table.rowScopes.take (taken table.rowCount) =
        (List.range (taken table.rowCount)).map .row := by
      rw [Table.rowScopes, ← List.map_take, List.take_range, htaken]
    obtain ⟨-, hrowCount, hrowGraph, -⟩ := hfirst table.rowScopes
    obtain ⟨-, hrecordCount, hrecordGraph, -⟩ := hfirst table.recordScopes
    rw [hrowLength] at hrowCount hrowGraph
    rw [hrecordLength] at hrecordCount hrecordGraph
    rw [hall, hall, ← hrows, List.map_take]
    exact ⟨hrowCount, hrowGraph, hrecordCount, hrecordGraph⟩

end TableGraph
