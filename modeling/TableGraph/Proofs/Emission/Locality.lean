import TableGraph.Proofs.Emission.Invariants
import TableGraph.Proofs.Mapping.Trees
import TableGraph.Table

/-!
# Evaluation is local

What an application does depends on the host's answers for the cells of the tree, in the rows of the
scope, and on nothing else that the host knows: two evaluators that give these answers alike cannot be
told apart by any sink (`apply_reads_own_cells`). So what stands in other rows of a table makes no
difference to a record.
-/

namespace TableGraph

open Emission (Maintains)

/-! ## Cells -/

def Node.cell? : Node → Option CellSource
  | .resource (.cellIri cell _) _ _ | .resource (.cellBlank cell) _ _ | .literal ⟨.cell cell, _, _⟩ => some cell
  | .resource (.constantIri ..) _ _ | .resource (.constantBlank ..) _ _ | .literal ⟨.constant .., _, _⟩ => none

/-- Two evaluators answer alike for the cell of a node, if it has one, in certain rows. -/
def Node.ReadsAlike (evaluate evaluate' : Evaluator) (rows : Nat → Prop) (node : Node) : Prop :=
  ∀ cell ∈ node.cell?, ∀ row, rows row →
    evaluate cell.expression cell.askedColumn row = evaluate' cell.expression cell.askedColumn row

section
variable {evaluate evaluate' : Evaluator} {rows : Nat → Prop}

theorem CellSource.texts_congr {cell : CellSource} {row : Nat}
    (h : evaluate cell.expression cell.askedColumn row = evaluate' cell.expression cell.askedColumn row) :
    cell.texts evaluate row = cell.texts evaluate' row := by
  rw [texts, texts, h]

theorem Node.termsInRow_congr (naming : Naming) (place : Address) {node : Node}
    (h : node.ReadsAlike evaluate evaluate' rows) {row : Option Nat} (hrow : ∀ r, row = some r → rows r) :
    node.termsInRow ⟨naming, evaluate⟩ place row = node.termsInRow ⟨naming, evaluate'⟩ place row := by
  have htexts : ∀ cell ∈ node.cell?, ∀ r, row = some r → cell.texts evaluate r = cell.texts evaluate' r :=
    fun cell hcell r hr => CellSource.texts_congr (h cell hcell r (hrow r hr))
  match node, row with
  | .resource (.constantIri ..) _ _, _ | .resource (.constantBlank ..) _ _, _ => rfl
  | .literal ⟨.constant .., _, _⟩, _ => rfl
  | .resource (.cellIri ..) _ _, none | .resource (.cellBlank _) _ _, none | .literal ⟨.cell _, _, _⟩, none => rfl
  | .resource (.cellIri cell _) _ _, some r =>
    simp only [Node.termsInRow, ResourceMaker.terms, htexts cell rfl r rfl]
  | .resource (.cellBlank cell) _ _, some r =>
    simp only [Node.termsInRow, ResourceMaker.terms, htexts cell rfl r rfl]
  | .literal ⟨.cell cell, _, _⟩, some r =>
    simp only [Node.termsInRow, LiteralMaker.terms, htexts cell rfl r rfl]

/-! ## Trees -/

/-- Emissions that are the same, as a relation. The results are kept in mind, as the emissions behind
them need to be the same for these only. -/
def Emission.Relation.same (σ : Type) : Emission.Relation σ σ where
  Related post x y := x = y ∧ Maintains (fun _ => True) post x
  pure h := ⟨rfl, Maintains.pure h⟩
  bind := by
    rintro α β mid post x _ f g ⟨rfl, hx⟩ hf
    refine ⟨?_, hx.bind fun a ha => (hf a ha).2⟩
    funext pass
    rw [bind_apply, bind_apply]
    rcases hrun : x pass with ⟨e | a, after⟩
    · rfl
    · have ha := (hx pass trivial).2 a (congrArg Prod.fst hrun)
      exact congrFun (hf a ha).1 after

variable {σ : Type} [TripleSink σ]

theorem Node.emit_congr (naming : Naming) (place : Address) {node : Node} {scope : Scope}
    (h : node.Every (Node.ReadsAlike evaluate evaluate' scope.Contains)) :
    (node.emit ⟨naming, evaluate⟩ place scope.cursor : Emission σ (List Term)) =
      node.emit ⟨naming, evaluate'⟩ place scope.cursor := by
  let ctx : Context := ⟨naming, evaluate⟩
  let ctx' : Context := ⟨naming, evaluate'⟩
  have hcarries : (Emission.Relation.same σ).Carries ctx ctx.production ctx'.production
      (fun _ node => node.Every (Node.ReadsAlike evaluate evaluate' scope.Contains)) scope.Contains
      (fun _ => True) (fun _ => True) :=
    { below := fun hnode hbelow => Node.everyObject_getElem (Node.every_iff.1 hnode).2 hbelow
      made := fun {place node row} hnode hrow => by
        have hterms := Node.termsInRow_congr naming place (Node.every_iff.1 hnode).1 hrow
        exact ⟨congrArg Emission.naming hterms, Maintains.naming fun _ _ => ⟨trivial, fun _ _ => by simp⟩⟩
      named := fun _ => trivial
      offered := fun _ => ⟨rfl, Maintains.offer fun _ _ _ _ => trivial⟩ }
  have hsame := (Node.emitBy_related hcarries place node h scope.cursor (Scope.within_cursor fun _ hr => hr)).1
  have hemit (own : Context) (hown : own.naming = ctx.naming) :
      (node.emit own place scope.cursor : Emission σ (List Term)) =
        node.emitBy own.production ctx place scope.cursor :=
    Node.emit_eq_emitBy hown place node scope.cursor
  exact ((hemit ctx rfl).trans hsame).trans (hemit ctx' rfl).symm

theorem Transform.emitRoots_congr (t : Transform) {scope : Scope} (number : Nat) {roots : List Node}
    (h : ∀ root ∈ roots, root.Every (Node.ReadsAlike evaluate evaluate' scope.Contains)) :
    (t.emitRoots evaluate scope number roots : Emission σ (List Term)) =
      t.emitRoots evaluate' scope number roots := by
  induction roots generalizing number with
  | nil => rfl
  | cons root rest ih =>
    have hroot : (t.emitRoot evaluate scope number root : Emission σ (List Term)) =
        t.emitRoot evaluate' scope number root :=
      Node.emit_congr t.naming [number] (h root List.mem_cons_self)
    rw [Transform.emitRoots, Transform.emitRoots, hroot,
      ih (number + 1) fun other hother => h other (List.mem_cons_of_mem _ hother)]

end

/-! ## Tables -/

namespace Table

theorem evaluate_congr {table table' : Table} (hcolumns : table.columns = table'.columns)
    (hexpressions : ∀ code, table.expressions.lookup code = table'.expressions.lookup code) {row : Nat}
    (hrow : table.rows[row]? = table'.rows[row]?) (e : Expression) (column : Option String) :
    table.evaluate e column row = table'.evaluate e column row := by
  have hrange : table.rowCount ≤ row ↔ table'.rowCount ≤ row := by
    rw [rowCount, rowCount, ← Array.getElem?_eq_none_iff, ← Array.getElem?_eq_none_iff, hrow]
  have hinput : table.input column row = table'.input column row := by
    cases column with
    | none => rfl
    | some name => simp only [input, columnIndex?, cell?, hcolumns, hrow]
  simp only [evaluate, hrange, hinput, hexpressions]

end Table

/-- **An application reads its own cells.** Two evaluators that answer alike for each cell of a transform,
in each row of a scope, make its application the same: for every sink, from every state of the blank nodes,
with the same terms or the same error, and the same triples offered. So two tables with the same columns
and expressions cannot be told apart by an application to a record whose rows they share, whatever their
other rows; nor by one to a row that they share. -/
theorem apply_reads_own_cells (t : Transform) :
    (∀ (evaluate evaluate' : Evaluator) (scope : Scope),
      (∀ root ∈ t.roots, root.Every fun node => ∀ cell ∈ node.cell?, ∀ row, scope.Contains row →
        evaluate cell.expression cell.askedColumn row = evaluate' cell.expression cell.askedColumn row) →
      ∀ (σ : Type) [TripleSink σ] (sink : σ) (blanks : BlankNodes),
        t.apply evaluate scope ⟨sink, blanks⟩ = t.apply evaluate' scope ⟨sink, blanks⟩) ∧
    ∀ (table table' : Table) (r : Record), table.columns = table'.columns →
      (∀ code, table.expressions.lookup code = table'.expressions.lookup code) →
      (∀ row, r.first ≤ row → row < r.stop → table.rows[row]? = table'.rows[row]?) →
      ∀ (σ : Type) [TripleSink σ] (sink : σ) (blanks : BlankNodes),
        t.apply table.evaluate (.record r) ⟨sink, blanks⟩ =
          t.apply table'.evaluate (.record r) ⟨sink, blanks⟩ ∧
        (r.stop = r.first + 1 → t.apply table.evaluate (.row r.first) ⟨sink, blanks⟩ =
          t.apply table'.evaluate (.row r.first) ⟨sink, blanks⟩) := by
  have hlocal {σ : Type} [TripleSink σ] (evaluate evaluate' : Evaluator) (scope : Scope)
      (h : ∀ root ∈ t.roots, root.Every (Node.ReadsAlike evaluate evaluate' scope.Contains)) :
      (t.apply evaluate scope : Emission σ (List Term)) = t.apply evaluate' scope :=
    t.emitRoots_congr 0 h
  refine ⟨fun evaluate evaluate' scope h σ _ sink blanks => ?_, ?_⟩
  · exact congrFun (hlocal evaluate evaluate' scope h) ⟨sink, blanks⟩
  intro table table' r hcolumns hexpressions hrows σ _ sink blanks
  have hanswers {rows : Nat → Prop} (h : ∀ row, rows row → row ∈ r.rows) (node : Node) :
      node.ReadsAlike table.evaluate table'.evaluate rows := fun cell _ row hrow => by
    have hrow := Record.mem_rows.1 (h row hrow)
    exact Table.evaluate_congr hcolumns hexpressions (hrows row hrow.1 hrow.2) _ _
  refine ⟨?_, fun hsingle => ?_⟩
  · have hrecord := hlocal table.evaluate table'.evaluate (.record r) (σ := σ) fun root _ =>
      Node.every_of_forall (hanswers fun row hrow => hrow) root
    exact congrFun hrecord ⟨sink, blanks⟩
  · have hrow := hlocal table.evaluate table'.evaluate (.row r.first) (σ := σ) fun root _ =>
      Node.every_of_forall (hanswers fun row hrow => Record.mem_rows.2 (by
        obtain rfl : row = r.first := hrow
        omega)) root
    exact congrFun hrow ⟨sink, blanks⟩

/-- Two tables that differ in their second row. -/
theorem apply_reads_own_cells_first_row :
    let link (o : String) : Triple := ⟨.iri "http://localhost:3333/s", "http://localhost:3333/p", .plain o⟩
    let t : Transform := ⟨⟨Transform.defaultBase, .empty⟩,
      [.resource (.constantIri "s" none .cellValue) []
        [(⟨none, "p"⟩, some (.literal ⟨.cell (.ofColumn "name"), none, none⟩))]], Transform.currentVersion⟩
    let table (second : String) : Table := ⟨["name"], #[[.string "a"], [.string second]], none, []⟩
    let asked : Evaluator := fun _ column _ => if column = some "name" then .ok (.string "a") else .ok .null
    let pass : Pass Graph := ⟨.empty, .fresh⟩
    (∀ root ∈ t.roots, root.Every fun node => ∀ cell ∈ node.cell?, ∀ row, (Scope.row 0).Contains row →
      asked cell.expression cell.askedColumn row =
        (table "b").evaluate cell.expression cell.askedColumn row) ∧
    t.apply asked (.row 0) pass = t.apply (table "b").evaluate (.row 0) pass ∧
    (∀ row, 0 ≤ row → row < 1 → (table "b").rows[row]? = (table "c").rows[row]?) ∧
    t.apply (table "b").evaluate (.record ⟨0, 1⟩) pass = t.apply (table "c").evaluate (.record ⟨0, 1⟩) pass ∧
    t.apply (table "b").evaluate (.row 0) pass = t.apply (table "c").evaluate (.row 0) pass ∧
    (t.apply (table "b").evaluate (.record ⟨0, 1⟩) pass).2.sink.toList = [link "a"] ∧
    (t.apply (table "b").evaluate (.record ⟨0, 2⟩) pass).2.sink.toList = [link "a", link "b"] := by
  intro link t table asked pass
  have halike : ∀ root ∈ t.roots, root.Every fun node => ∀ cell ∈ node.cell?, ∀ row,
      (Scope.row 0).Contains row → asked cell.expression cell.askedColumn row =
        (table "b").evaluate cell.expression cell.askedColumn row := by
    intro root hroot
    obtain rfl := List.mem_singleton.1 hroot
    refine ⟨nofun, ⟨?_, trivial⟩⟩
    rintro cell ⟨⟩ row rfl
    rfl
  have hshared : ∀ row, 0 ≤ row → row < 1 → (table "b").rows[row]? = (table "c").rows[row]? := by
    intro row _ hlt
    obtain rfl : row = 0 := by omega
    rfl
  obtain ⟨hcells, htables⟩ := apply_reads_own_cells t
  obtain ⟨hrecord, hrow⟩ := htables (table "b") (table "c") ⟨0, 1⟩ rfl (fun _ => rfl) hshared Graph .empty .fresh
  refine ⟨halike, ?_, hshared, hrecord, hrow rfl, by decide +kernel, by decide +kernel⟩
  exact hcells asked (table "b").evaluate (.row 0) halike Graph .empty .fresh

end TableGraph
