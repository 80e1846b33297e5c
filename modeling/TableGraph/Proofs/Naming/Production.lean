import TableGraph.Proofs.BlankLabel.Apart
import TableGraph.Proofs.Emission.Settled
import TableGraph.Proofs.Naming.WellFormed

/-!
# Blank nodes that nodes make

The node of a constant makes one blank node, the one that the constant stands for. Any other node leaves
the constants alone, and the anonymous blank nodes among its terms are made on the spot
(`Node.termsInRow_mints`).
-/

namespace TableGraph

open BlankNodes (anonymousLabel mint ofCell ofConstant ofCell_cases anonymousLabel_injective)

/-! ## Making no names for constants -/

/-- A computation that leaves constants alone, and returns no anonymous blank nodes but those that it
makes. -/
def Mints (x : StateM BlankNodes (List Term)) : Prop :=
  ∀ blanks, (x blanks).2.constants = blanks.constants ∧ blanks.minted ≤ (x blanks).2.minted ∧
    ∀ n, .blank ⟨anonymousLabel n⟩ ∈ (x blanks).1 → blanks.minted ≤ n ∧ n < (x blanks).2.minted

namespace Mints

theorem pure {terms : List Term} (h : ∀ term ∈ terms, term.isBlank = false) :
    Mints (Pure.pure terms) := by
  refine fun blanks => ⟨rfl, Nat.le_refl _, fun n hn => ?_⟩
  cases h _ hn

theorem mapM {f : α → StateM BlankNodes Term} {l : List α} (h : ∀ a ∈ l, Mints (do return [← f a])) :
    Mints (l.mapM f) := by
  induction l with
  | nil => exact pure (List.forall_mem_nil _)
  | cons a rest ih =>
    intro blanks
    obtain ⟨hkept, hle, hown⟩ := h a List.mem_cons_self blanks
    obtain ⟨hkept', hle', hown'⟩ := ih (fun b hb => h b (List.mem_cons_of_mem _ hb)) (f a blanks).2
    have hcons : (a :: rest).mapM f blanks =
        ((f a blanks).1 :: (rest.mapM f (f a blanks).2).1, (rest.mapM f (f a blanks).2).2) := by
      rw [List.mapM_cons]
      rfl
    change (f a blanks).2.constants = _ at hkept
    change _ ≤ (f a blanks).2.minted at hle
    rw [hcons]
    refine ⟨hkept'.trans hkept, Nat.le_trans hle hle', fun n hn => ?_⟩
    rcases List.mem_cons.1 hn with hn | hn
    · obtain ⟨hlo, hhi⟩ := hown n (List.mem_singleton.2 hn)
      exact ⟨hlo, Nat.lt_of_lt_of_le hhi hle'⟩
    · obtain ⟨hlo, hhi⟩ := hown' n hn
      exact ⟨Nat.le_trans hle hlo, hhi⟩

theorem ofCell (cell : CellSource) (row : Nat) : Mints (do return [.blank (← BlankNodes.ofCell cell row)]) := by
  intro blanks
  rcases ofCell_cases cell row with ⟨id, hid, hapart⟩ | hmint
  · rw [hid]
    refine ⟨rfl, Nat.le_refl _, fun n hn => ?_⟩
    have hn := Term.blank.inj (List.mem_singleton.1 hn)
    exact absurd (congrArg BlankId.label hn.symm) (hapart n)
  · rw [hmint]
    refine ⟨rfl, Nat.le_succ _, fun n hn => ?_⟩
    have hn := Term.blank.inj (List.mem_singleton.1 hn)
    obtain rfl := anonymousLabel_injective (congrArg BlankId.label hn)
    exact ⟨Nat.le_refl _, Nat.lt_succ_self _⟩

end Mints

/-! ## Terms that are no blank nodes -/

theorem Naming.isIri_of_resourceOfValue? {n : Naming} {label : Option String} {raw : String}
    {term : Term} (h : n.resourceOfValue? label raw = some term) : term.isIri = true := by
  have hresource {label : Option String} {raw : String} (h : n.resource? label raw = some term) :
      term.isIri = true := by
    obtain ⟨iri, -, rfl⟩ := Option.map_eq_some_iff.1 h
    rfl
  unfold resourceOfValue? at h
  dsimp only at h
  split at h
  · split at h <;> exact hresource h
  · exact hresource h

theorem Naming.isBlank_of_resourceOfValue? {n : Naming} {label : Option String} {raw : String}
    {term : Term} (h : n.resourceOfValue? label raw = some term) : term.isBlank = false := by
  have hiri := isIri_of_resourceOfValue? h
  cases term with
  | iri => rfl
  | blank | literal => cases hiri

theorem Naming.isBlank_of_literal? {n : Naming} {raw : String} {datatype : Option IriName}
    {language : Option String} {term : Term} (h : n.literal? raw datatype language = some term) :
    term.isBlank = false := by
  obtain ⟨-, ⟨iri, -, rfl⟩ | ⟨-, ⟨tag, -, rfl⟩ | rfl⟩⟩ := literal?_cases h <;> rfl

/-! ## Nodes -/

namespace Node

/-- The seed and the rule of a node that makes the blank node of a constant. -/
def constantBlank? : Node → Option (String × LabelRule)
  | .resource (.constantBlank seed _ rule) _ _ => some (seed, rule)
  | _ => none

variable (ctx : Context) (place : Address) {node : Node} (row : Option Nat)

theorem termsInRow_of_constantBlank {seed : String} {rule : LabelRule}
    (h : node.constantBlank? = some (seed, rule)) :
    node.termsInRow ctx place row = (do return [.blank (← ofConstant place seed rule)]) := by
  match node with
  | .resource (.constantBlank own _ ownRule) _ _ =>
    obtain ⟨rfl, rfl⟩ := Prod.mk.inj (Option.some.inj h)
    rfl
  | .resource (.constantIri ..) _ _ | .resource (.cellIri ..) _ _ | .resource (.cellBlank _) _ _
  | .literal _ => cases h

/-- A node that is not of a constant makes its own anonymous blank nodes. -/
theorem termsInRow_mints (h : node.constantBlank? = none) : Mints (node.termsInRow ctx place row) := by
  match node, row with
  | .resource (.constantBlank ..) _ _, _ => cases h
  | .resource (.constantIri constant label _) _ _, _ =>
    refine Mints.pure fun term hterm => ?_
    split at hterm
    · cases hterm
    · exact Naming.isBlank_of_resourceOfValue? (Option.mem_toList.1 hterm)
  | .resource (.cellIri ..) _ _, some _ =>
    refine Mints.pure fun term hterm => ?_
    obtain ⟨value, -, hvalue⟩ := List.mem_filterMap.1 hterm
    exact Naming.isBlank_of_resourceOfValue? hvalue
  | .resource (.cellBlank cell) _ _, some row => exact Mints.mapM fun _ _ => Mints.ofCell cell row
  | .resource (.cellIri ..) _ _, none | .resource (.cellBlank _) _ _, none =>
    exact Mints.pure (List.forall_mem_nil _)
  | .literal maker, row =>
    refine Mints.pure fun term hterm => ?_
    unfold LiteralMaker.terms at hterm
    split at hterm
    · exact Naming.isBlank_of_literal? (Option.mem_toList.1 hterm)
    · obtain ⟨value, -, hvalue⟩ := List.mem_filterMap.1 hterm
      exact Naming.isBlank_of_literal? hvalue
    · cases hterm

theorem keeps_termsInRow (blanks : BlankNodes) :
    BlankNodes.Keeps blanks (node.termsInRow ctx place row blanks).2 := by
  cases h : node.constantBlank? with
  | some constant =>
    rw [termsInRow_of_constantBlank ctx place row h]
    exact BlankNodes.keeps_ofConstant place constant.1 constant.2 blanks
  | none =>
    have hkept := (termsInRow_mints ctx place row h blanks).1
    rw [BlankNodes.Keeps, hkept]
    exact fun _ _ h => h

end Node

end TableGraph
