import Mathlib.Data.List.Forall2
import TableGraph.Proofs.Json.Leaves
import TableGraph.Proofs.Naming.Production

/-!
# Values that fan out into terms

From the value that the host returns for a cell, a node makes its terms text by text: a literal from every
text (`Naming.isSome_literal?`), a blank node from every text with a character that is no blank or format
character, and an IRI from every text that means one. The terms come in the order of the texts, and these
in the order of the leaves of the value (`values_fan_out`).
-/

namespace TableGraph

open Unicode (isBlankFormat)

/-! ## Lists that go side by side -/

theorem forall₂_filterMap (f : α → Option β) (l : List α) :
    List.Forall₂ (fun a b => f a = some b) (l.filter fun a => (f a).isSome) (l.filterMap f) := by
  induction l with
  | nil => exact .nil
  | cons a rest ih =>
    cases h : f a with
    | none =>
      rw [List.filterMap_cons_none h, List.filter_cons_of_neg (by simp [h])]
      exact ih
    | some b =>
      rw [List.filterMap_cons_some h, List.filter_cons_of_pos (by simp [h])]
      exact .cons h ih

theorem forall₂_mapM {f : α → StateM σ β} {R : α → β → Prop} (h : ∀ a s, R a (f a s).1) (l : List α) (s : σ) :
    List.Forall₂ R l (l.mapM f s).1 := by
  induction l generalizing s with
  | nil => exact .nil
  | cons a rest ih =>
    have hcons : ((a :: rest).mapM f s).1 = (f a s).1 :: (rest.mapM f (f a s).2).1 := by
      rw [List.mapM_cons]
      rfl
    rw [hcons]
    exact .cons (h a s) (ih _)

/-! ## Texts of a cell -/

/-- The value that the host returns for a cell in a row. The host may fail, and for a free-standing
expression it is not asked. -/
def CellSource.value? (cell : CellSource) (evaluate : Evaluator) (row : Nat) : Option Json :=
  if cell.kind = .expression then none else (evaluate cell.expression cell.askedColumn row).toOption

theorem CellSource.texts_eq (cell : CellSource) (evaluate : Evaluator) (row : Nat) :
    cell.texts evaluate row = (cell.value? evaluate row).elim [] Json.texts := by
  unfold texts value?
  split
  · rfl
  · cases evaluate cell.expression cell.askedColumn row <;> rfl

theorem CellSource.empty_notMem_texts (cell : CellSource) (evaluate : Evaluator) (row : Nat) :
    "" ∉ cell.texts evaluate row := by
  rw [texts_eq]
  cases cell.value? evaluate row with
  | none => exact List.not_mem_nil
  | some v => exact v.empty_notMem_texts

theorem Text.isEmpty_stripSpace (s : String) :
    (!(stripSpace s).isEmpty) = s.toList.any fun c => !isBlankFormat c := by
  rw [Bool.eq_iff_iff, Bool.not_eq_true', ← Bool.not_eq_true, String.isEmpty_iff, stripSpace,
    String.ofList_eq_empty_iff]
  simp

/-! ## Terms of a text -/

namespace Naming

variable {n : Naming} {raw : String} {datatype : Option IriName} {language : Option String}

/-- No datatype and no language keeps a text from being a literal. -/
theorem isSome_literal? (h : raw ≠ "") : (n.literal? raw datatype language).isSome = true := by
  have hraw : raw.isEmpty = false := by simpa using h
  unfold literal?
  rw [hraw, if_neg Bool.false_ne_true]
  split
  · rfl
  · split <;> rfl

theorem exists_of_literal? {term : Term} (h : n.literal? raw datatype language = some term) :
    ∃ kind tag, term = .literal raw kind tag := by
  obtain ⟨-, ⟨iri, -, rfl⟩ | ⟨-, ⟨tag, -, rfl⟩ | rfl⟩⟩ := literal?_cases h
  · exact ⟨some iri, none, rfl⟩
  · exact ⟨some Standard.rdfLangString, some tag, rfl⟩
  · exact ⟨none, none, rfl⟩

end Naming

/-! ## Terms of a cell -/

namespace Node

variable (ctx : Context) (cell : CellSource) (row : Nat) (place : Address) (blanks : BlankNodes)

theorem forall₂_cellLiteral (datatype : Option IriName) (language : Option String) :
    List.Forall₂ (fun text term => ∃ kind tag, term = Term.literal text kind tag)
      (cell.texts ctx.evaluate row)
      ((cellLiteral cell datatype language).termsInRow ctx place (some row) blanks).1 := by
  have hall : (cell.texts ctx.evaluate row).filter
      (fun text => (ctx.naming.literal? text datatype language).isSome) = cell.texts ctx.evaluate row := by
    refine List.filter_eq_self.2 fun text htext => Naming.isSome_literal? ?_
    rintro rfl
    exact cell.empty_notMem_texts ctx.evaluate row htext
  have hmade := forall₂_filterMap (fun text => ctx.naming.literal? text datatype language)
    (cell.texts ctx.evaluate row)
  rw [hall] at hmade
  exact hmade.imp fun _ _ h => Naming.exists_of_literal? h

theorem forall₂_cellBlank (types : List IriName) (properties : List Property) :
    List.Forall₂ (fun _ term => term.isBlank = true)
      ((cell.texts ctx.evaluate row).filter fun text => text.toList.any fun c => !isBlankFormat c)
      ((resource (.cellBlank cell) types properties).termsInRow ctx place (some row) blanks).1 := by
  let name (_ : String) : StateM BlankNodes Term := do return .blank (← BlankNodes.ofCell cell row)
  have hname (text : String) (blanks : BlankNodes) : (name text blanks).1.isBlank = true := rfl
  simp only [← Text.isEmpty_stripSpace]
  exact forall₂_mapM hname _ blanks

theorem forall₂_cellIri (label : Option String) (types : List IriName) (properties : List Property) :
    List.Forall₂ (fun text term => ctx.naming.resourceOfValue? label text = some term ∧ term.isIri = true)
      ((cell.texts ctx.evaluate row).filter fun text => (ctx.naming.resourceOfValue? label text).isSome)
      ((resource (.cellIri cell label) types properties).termsInRow ctx place (some row) blanks).1 :=
  (forall₂_filterMap _ _).imp fun _ _ h => ⟨h, Naming.isIri_of_resourceOfValue? h⟩

end Node

/-- **Values fan out into terms, none lost, none made up, and in their order.** The texts of a value are those
of its leaves from left to right, of which null and the empty string have none: whatever is no array at the
places that arrays alone lead to, in the order of the places. Moving the brackets of arrays changes nothing.
From each text of the value that the host returns for a cell, a literal node makes one literal that says
the text, whatever its datatype and language; a blank node comes of each text with a character that is no
blank or format character, and an IRI of each text that means one. -/
theorem values_fan_out (v : Json) :
    ((∀ leaf : Json.Leaf,
        leaf ∈ v.leaves ↔ v.at? leaf.place = some leaf.value ∧ leaf.value.isArray = false) ∧
      v.leaves.Pairwise fun a b => a.place < b.place) ∧
    (v.texts = (v.leafValues.filter Json.hasText).map Json.plainText ∧ "" ∉ v.texts ∧
      ∀ w, v.Rebracketed w → w.texts = v.texts) ∧
    ∀ (ctx : Context) (cell : CellSource) (row : Nat), cell.value? ctx.evaluate row = some v →
      ∀ (place : Address) (blanks : BlankNodes) (types : List IriName) (properties : List Property),
        let made (node : Node) : List Term := (node.termsInRow ctx place (some row) blanks).1
        (∀ datatype language,
          List.Forall₂ (fun text term => ∃ kind tag, term = .literal text kind tag) v.texts
            (made (.cellLiteral cell datatype language))) ∧
        List.Forall₂ (fun _ term => term.isBlank = true)
          (v.texts.filter fun text => text.toList.any fun c => !isBlankFormat c)
          (made (.resource (.cellBlank cell) types properties)) ∧
        ∀ label,
          List.Forall₂
            (fun text term => ctx.naming.resourceOfValue? label text = some term ∧ term.isIri = true)
            (v.texts.filter fun text => (ctx.naming.resourceOfValue? label text).isSome)
            (made (.resource (.cellIri cell label) types properties)) := by
  refine ⟨⟨fun leaf => v.mem_leaves, v.pairwise_leaves⟩,
    ⟨v.texts_eq, v.empty_notMem_texts, fun w h => h.texts⟩, ?_⟩
  intro ctx cell row hvalue place blanks types properties made
  have htexts : cell.texts ctx.evaluate row = v.texts := by
    rw [CellSource.texts_eq, hvalue]
    rfl
  rw [← htexts]
  exact ⟨Node.forall₂_cellLiteral ctx cell row place blanks,
    Node.forall₂_cellBlank ctx cell row place blanks types properties,
    fun label => Node.forall₂_cellIri ctx cell row place blanks label types properties⟩

/-- Of a nested value with two texts, one of them a zero width space, there are two literals, but one blank
node and one IRI. -/
theorem values_fan_out_nested :
    let v : Json := .array [.array [.null, .string "\u200b", .string ""], .array [.array [.bool true]]]
    let ctx : Context := ⟨⟨Transform.defaultBase, .empty⟩, fun _ _ _ => .ok v⟩
    let cell : CellSource := .ofColumn "name"
    let made (node : Node) : List Term := (node.termsInRow ctx [0] (some 3) .fresh).1
    (cell.value? ctx.evaluate 3 = some v ∧ v.texts = ["\u200b", "true"]) ∧
      List.Forall₂ (fun text term => ∃ kind tag, term = .literal text kind tag) ["\u200b", "true"]
        (made (.cellLiteral cell (some ⟨none, "xsd:boolean"⟩) (some "en"))) ∧
      List.Forall₂ (fun _ term => term.isBlank = true) ["true"] (made (.cellBlank cell)) ∧
      List.Forall₂
        (fun text term => ctx.naming.resourceOfValue? none text = some term ∧ term.isIri = true) ["true"]
        (made (.cellIri cell none)) := by
  intro v ctx cell made
  have htexts : v.texts = ["\u200b", "true"] := by decide +kernel
  obtain ⟨hliteral, hblank, hiri⟩ := (values_fan_out v).2.2 ctx cell 3 rfl [0] .fresh [] []
  have hvisible : (v.texts.filter fun text => text.toList.any fun c => !isBlankFormat c) = ["true"] := by
    decide +kernel
  have hmeant : (v.texts.filter fun text => (ctx.naming.resourceOfValue? none text).isSome) = ["true"] := by
    decide +kernel
  refine ⟨⟨rfl, htexts⟩, ?_, ?_, ?_⟩
  · rw [← htexts]
    exact hliteral _ _
  · rw [← hvisible]
    exact hblank
  · rw [← hmeant]
    exact hiri none

end TableGraph
