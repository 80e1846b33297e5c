import TableGraph.Proofs.Emission.Settled
import TableGraph.Proofs.Iri.Components
import TableGraph.Proofs.Iri.Repaired
import TableGraph.Transform

/-!
# Blank nodes of different cells

The label of a blank node that a cell makes is a stem, an underscore and the number of the row. The stem
says what the cell reads: it is the repaired name of a column, or a word for an index. Both stem and row
can be read off the label (`rowLabel_injective`), so blank nodes are the same only for the same row and the
same stem (`cell_blanks_equal_iff`). Words are no less names: a column that is called like the word for an
index shares the blank nodes of that index, and no other column does.
-/

namespace TableGraph

/-! ## Labels -/

namespace BlankNodes

/-- The label of a stem in a row. -/
def rowLabel (stem : String) (row : Nat) : String :=
  stem ++ "_" ++ toString row

theorem underscore_notMem_toString (n : Nat) : '_' ∉ (toString n).toList := by
  intro h
  exact absurd (Iri.isDigit_of_mem_toString h) (by decide)

theorem toString_injective {m n : Nat} (h : toString m = toString n) : m = n := by
  have hvalues := congrArg (fun digits => Nat.ofDigitChars 10 digits.toList 0) h
  simpa [Nat.toString_eq_ofList_toDigits] using hvalues

theorem cutAt_reverse_rowLabel (stem : String) (row : Nat) :
    Text.cutAt '_' (rowLabel stem row).toList.reverse =
      some ((toString row).toList.reverse, stem.toList.reverse) := by
  rw [Text.cutAt_eq_some_iff]
  refine ⟨fun h => underscore_notMem_toString row (List.mem_reverse.1 h), ?_⟩
  simp [rowLabel, String.toList_append]

theorem rowLabel_injective {a b : String} {m n : Nat} (h : rowLabel a m = rowLabel b n) :
    a = b ∧ m = n := by
  have hcut := cutAt_reverse_rowLabel a m
  rw [h, cutAt_reverse_rowLabel b n, Option.some.injEq, Prod.mk.injEq, List.reverse_inj,
    List.reverse_inj, String.toList_inj, String.toList_inj] at hcut
  exact ⟨hcut.2.symm, toString_injective hcut.1.symm⟩

end BlankNodes

/-! ## What cells read -/

namespace CellSource

open BlankNodes (rowLabel)

/-- What the labels of a cell start with. -/
def stem? (cell : CellSource) : Option String :=
  match cell.kind with
  | .rowIndex => some "row"
  | .recordIndex => some "record"
  | .column | .constant | .expression => cell.column.bind Iri.ofText?

/-- Two cells read the same: both the index of the row, both that of the record, or columns whose names
are repaired alike. -/
def ReadsAlike (c d : CellSource) : Prop :=
  (c.kind = .rowIndex ∧ d.kind = .rowIndex) ∨ (c.kind = .recordIndex ∧ d.kind = .recordIndex) ∨
    (c.isIndex = false ∧ d.isIndex = false ∧
      ∃ name other, c.column = some name ∧ d.column = some other ∧ Iri.ofText? name = Iri.ofText? other)

/-- A cell reads a column that is called like the word for the index that another cell reads. -/
def IsCalledLike (c d : CellSource) : Prop :=
  c.isIndex = false ∧
    ((c.column = some "row" ∧ d.kind = .rowIndex) ∨ (c.column = some "record" ∧ d.kind = .recordIndex))

theorem isIndex_eq_false_iff {cell : CellSource} :
    cell.isIndex = false ↔ cell.kind ≠ .rowIndex ∧ cell.kind ≠ .recordIndex := by
  cases hkind : cell.kind <;> simp [isIndex, SourceKind.isIndex, hkind]

theorem HasName.cases {cell : CellSource} (h : cell.HasName) :
    (cell.kind = .rowIndex ∧ cell.stem? = some "row") ∨
      (cell.kind = .recordIndex ∧ cell.stem? = some "record") ∨
      ((cell.kind ≠ .rowIndex ∧ cell.kind ≠ .recordIndex) ∧
        ∃ name stem, cell.column = some name ∧ Iri.ofText? name = some stem ∧ cell.stem? = some stem) := by
  cases hkind : cell.kind with
  | rowIndex => exact .inl ⟨rfl, by simp [stem?, hkind]⟩
  | recordIndex => exact .inr (.inl ⟨rfl, by simp [stem?, hkind]⟩)
  | column | constant | expression =>
    have hindex : cell.isIndex = false := by simp [isIndex_eq_false_iff, hkind]
    obtain ⟨name, hcolumn, hname⟩ := h.resolve_left (by simp [hindex])
    obtain ⟨stem, hstem⟩ := Iri.exists_ofText? hname
    exact .inr (.inr ⟨by simp, name, stem, hcolumn, hstem, by simp [stem?, hkind, hcolumn, hstem]⟩)

theorem HasName.exists_stem? {cell : CellSource} (h : cell.HasName) : ∃ stem, cell.stem? = some stem := by
  rcases h.cases with ⟨-, hstem⟩ | ⟨-, hstem⟩ | ⟨-, name, stem, -, -, hstem⟩ <;> exact ⟨_, hstem⟩

theorem ofText?_eq_row_iff {name : String} : Iri.ofText? name = some "row" ↔ name = "row" :=
  Iri.ofText?_eq_word_iff (by decide +kernel) (by decide)

theorem ofText?_eq_record_iff {name : String} : Iri.ofText? name = some "record" ↔ name = "record" :=
  Iri.ofText?_eq_word_iff (by decide +kernel) (by decide)

theorem stem?_eq_iff {c d : CellSource} (hc : c.HasName) (hd : d.HasName) :
    c.stem? = d.stem? ↔ c.ReadsAlike d ∨ c.IsCalledLike d ∨ d.IsCalledLike c := by
  rw [ReadsAlike, IsCalledLike, IsCalledLike, isIndex_eq_false_iff, isIndex_eq_false_iff]
  rcases hc.cases with ⟨hkind, hstem⟩ | ⟨hkind, hstem⟩ | ⟨hindex, name, stem, hcolumn, hname, hstem⟩ <;>
    rcases hd.cases with ⟨hkind', hstem'⟩ | ⟨hkind', hstem'⟩ |
      ⟨hindex', other, stem', hcolumn', hname', hstem'⟩
  · simp [hstem, hstem', hkind, hkind']
  · simp [hstem, hstem', hkind, hkind']
  · rw [hstem, hstem', ← hname', eq_comm, ofText?_eq_row_iff]
    simp [hkind, hindex', hcolumn']
  · simp [hstem, hstem', hkind, hkind']
  · simp [hstem, hstem', hkind, hkind']
  · rw [hstem, hstem', ← hname', eq_comm, ofText?_eq_record_iff]
    simp [hkind, hindex', hcolumn']
  · rw [hstem, hstem', ← hname, ofText?_eq_row_iff]
    simp [hkind', hindex, hcolumn]
  · rw [hstem, hstem', ← hname, ofText?_eq_record_iff]
    simp [hkind', hindex, hcolumn]
  · rw [hstem, hstem', ← hname, ← hname']
    simp [hindex, hindex', hcolumn, hcolumn']

end CellSource

/-! ## Terms -/

theorem BlankNodes.ofCell_of_stem? {cell : CellSource} {stem : String} (h : cell.stem? = some stem)
    (row : Nat) : ofCell cell row = pure ⟨rowLabel stem row⟩ := by
  unfold CellSource.stem? at h
  unfold ofCell
  cases hkind : cell.kind with
  | rowIndex =>
    rw [hkind] at h
    obtain rfl := Option.some.inj h
    rfl
  | recordIndex =>
    rw [hkind] at h
    obtain rfl := Option.some.inj h
    rfl
  | column | constant | expression =>
    rw [hkind] at h
    dsimp only at h
    rw [h]
    rfl

theorem Node.eq_of_mem_termsInRow {cell : CellSource} {stem : String} (h : cell.stem? = some stem)
    {types : List IriName} {properties : List Property} {ctx : Context} {place : Address} {row : Nat}
    {blanks : BlankNodes} {term : Term}
    (hterm : term ∈ ((Node.resource (.cellBlank cell) types properties).termsInRow ctx place (some row)
      blanks).1) :
    term = .blank ⟨BlankNodes.rowLabel stem row⟩ := by
  simp only [Node.termsInRow, ResourceMaker.terms, BlankNodes.ofCell_of_stem? h, pure_bind,
    List.mapM_pure] at hterm
  obtain ⟨value, -, rfl⟩ := List.mem_map.1 hterm
  rfl

/-- **Blank nodes of different cells are kept apart, unless a column is called like an index.** Take two
cells, each of which is an index or a column with a name, and blank nodes that they make, whatever the
host evaluates and whatever was named before. These are the same exactly if the rows are, and the cells
read the same: both the index of the row, both that of the record, or columns whose names are repaired
alike. There is one exception: the column `row` shares the blank nodes of the index of the row, and the
column `record` those of the index of the record. -/
theorem cell_blanks_equal_iff {c d : CellSource} (hc : c.HasName) (hd : d.HasName)
    (types types' : List IriName) (properties properties' : List Property) (ctx ctx' : Context)
    (place place' : Address) (row row' : Nat) (blanks blanks' : BlankNodes) :
    ∀ a ∈ ((Node.resource (.cellBlank c) types properties).termsInRow ctx place (some row) blanks).1,
    ∀ b ∈ ((Node.resource (.cellBlank d) types' properties').termsInRow ctx' place' (some row') blanks').1,
      a = b ↔ row = row' ∧ (c.ReadsAlike d ∨ c.IsCalledLike d ∨ d.IsCalledLike c) := by
  intro a ha b hb
  obtain ⟨stem, hstem⟩ := hc.exists_stem?
  obtain ⟨stem', hstem'⟩ := hd.exists_stem?
  rw [Node.eq_of_mem_termsInRow hstem ha, Node.eq_of_mem_termsInRow hstem' hb,
    ← CellSource.stem?_eq_iff hc hd, hstem, hstem', Option.some.injEq]
  constructor
  · intro h
    have hlabel : BlankNodes.rowLabel stem row = BlankNodes.rowLabel stem' row' :=
      congrArg BlankId.label (Term.blank.inj h)
    exact (BlankNodes.rowLabel_injective hlabel).symm
  · rintro ⟨rfl, rfl⟩
    rfl

/-- The column `a` in row 12 and the column `a_1` in row 2 are different blank nodes. -/
theorem cell_blanks_equal_iff_underscores :
    let ctx : Context := ⟨⟨Transform.defaultBase, .empty⟩, fun _ _ _ => .ok (.string "x")⟩
    let terms (column : String) (row : Nat) : List Term :=
      ((Node.resource (.cellBlank (.ofColumn column)) [] []).termsInRow ctx [0] (some row) .fresh).1
    ((CellSource.ofColumn "a").HasName ∧ (CellSource.ofColumn "a_1").HasName) ∧
      (.blank ⟨"a_12"⟩ ∈ terms "a" 12 ∧ .blank ⟨"a_1_2"⟩ ∈ terms "a_1" 2) ∧
        (Term.blank ⟨"a_12"⟩ = .blank ⟨"a_1_2"⟩ ↔ 12 = 2 ∧
          ((CellSource.ofColumn "a").ReadsAlike (.ofColumn "a_1") ∨
            (CellSource.ofColumn "a").IsCalledLike (.ofColumn "a_1") ∨
            (CellSource.ofColumn "a_1").IsCalledLike (.ofColumn "a"))) := by
  intro ctx terms
  have ha : (CellSource.ofColumn "a").HasName := .inr ⟨"a", rfl, by decide⟩
  have hb : (CellSource.ofColumn "a_1").HasName := .inr ⟨"a_1", rfl, by decide⟩
  have hterms : .blank ⟨"a_12"⟩ ∈ terms "a" 12 ∧ .blank ⟨"a_1_2"⟩ ∈ terms "a_1" 2 := by
    decide +kernel
  exact ⟨⟨ha, hb⟩, hterms,
    cell_blanks_equal_iff ha hb [] [] [] [] ctx ctx [0] [0] 12 2 .fresh .fresh _ hterms.1 _ hterms.2⟩

/-- The index of the row and the column `row` do not read the same, nor do the index of the record and the
column `record`, but they make the same blank nodes. -/
theorem cell_blanks_of_index_and_column_equal :
    let ctx : Context := ⟨⟨Transform.defaultBase, .empty⟩, fun _ _ _ => .ok (.string "x")⟩
    let terms (cell : CellSource) : List Term :=
      ((Node.resource (.cellBlank cell) [] []).termsInRow ctx [0] (some 3) .fresh).1
    (terms .rowIndex = [.blank ⟨"row_3"⟩] ∧ terms (.ofColumn "row") = [.blank ⟨"row_3"⟩] ∧
      ¬ CellSource.rowIndex.ReadsAlike (.ofColumn "row")) ∧
    (terms .recordIndex = [.blank ⟨"record_3"⟩] ∧ terms (.ofColumn "record") = [.blank ⟨"record_3"⟩] ∧
      ¬ CellSource.recordIndex.ReadsAlike (.ofColumn "record")) := by
  have hapart : ¬ CellSource.rowIndex.ReadsAlike (.ofColumn "row") ∧
      ¬ CellSource.recordIndex.ReadsAlike (.ofColumn "record") := by
    simp [CellSource.ReadsAlike, CellSource.rowIndex, CellSource.recordIndex, CellSource.ofColumn,
      CellSource.isIndex, SourceKind.isIndex]
  refine ⟨⟨?_, ?_, hapart.1⟩, ?_, ?_, hapart.2⟩ <;> decide +kernel

end TableGraph
