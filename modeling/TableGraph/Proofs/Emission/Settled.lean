import TableGraph.Proofs.Emission.Statements
import TableGraph.Proofs.Iri.Repairable

/-!
# Blank nodes in hindsight

The blank node of a constant is named when it is first needed, so what a tree says depends on what was
evaluated before. A name once given stays. Looking back from blank nodes in which all names are given, a
computation that ended there has only one possible result (`Settles`): the one in which these blank nodes
stand from the beginning, and where nothing is carried along any more. Run again from there, it has that
result and names nothing.

This needs that evaluation makes no anonymous blank nodes but those of constants (`Node.HasNames`): the
blank node of a cell is then named by its row and by what the cell reads.
-/

namespace TableGraph

namespace BlankNodes

/-! ## Names stay -/

/-- Constants that have a blank node keep it. -/
def Keeps (earlier later : BlankNodes) : Prop :=
  ∀ place id, earlier.constants.lookup place = some id → later.constants.lookup place = some id

theorem Keeps.refl (blanks : BlankNodes) : Keeps blanks blanks :=
  fun _ _ h => h

theorem Keeps.trans {a b c : BlankNodes} (hab : Keeps a b) (hbc : Keeps b c) : Keeps a c :=
  fun place id h => hbc place id (hab place id h)

theorem constants_name (seed : String) (rule : LabelRule) (blanks : BlankNodes) :
    (name seed rule blanks).2.constants = blanks.constants := by
  unfold name
  split
  · rfl
  · dsimp only
    split <;> rfl

theorem ofConstant_of_some {place : Address} {blanks : BlankNodes} {id : BlankId}
    (h : blanks.constants.lookup place = some id) (seed : String) (rule : LabelRule) :
    ofConstant place seed rule blanks = (id, blanks) := by
  rw [ofConstant, h]

theorem ofConstant_of_none {place : Address} {blanks : BlankNodes}
    (h : blanks.constants.lookup place = none) (seed : String) (rule : LabelRule) :
    ∃ id minted, ofConstant place seed rule blanks =
      (id, ⟨(place, id) :: blanks.constants, minted⟩) := by
  have hkept := constants_name seed rule blanks
  rcases hname : name seed rule blanks with ⟨id, named⟩
  rw [hname] at hkept
  refine ⟨id, named.minted, ?_⟩
  rw [ofConstant, h, hname, ← hkept]

theorem lookup_ofConstant (place : Address) (seed : String) (rule : LabelRule) (blanks : BlankNodes) :
    (ofConstant place seed rule blanks).2.constants.lookup place =
      some (ofConstant place seed rule blanks).1 := by
  cases h : blanks.constants.lookup place with
  | some id => rw [ofConstant_of_some h, h]
  | none =>
    obtain ⟨id, minted, hname⟩ := ofConstant_of_none h seed rule
    rw [hname]
    simp

theorem keeps_ofConstant (place : Address) (seed : String) (rule : LabelRule) (blanks : BlankNodes) :
    Keeps blanks (ofConstant place seed rule blanks).2 := by
  cases h : blanks.constants.lookup place with
  | some id =>
    rw [ofConstant_of_some h]
    exact Keeps.refl blanks
  | none =>
    obtain ⟨id, minted, hname⟩ := ofConstant_of_none h seed rule
    rw [hname]
    intro place' id' h'
    have hne : place' ≠ place := by
      rintro rfl
      rw [h] at h'
      cases h'
    rw [List.lookup_cons, beq_false_of_ne hne]
    exact h'

end BlankNodes

/-! ## Settled results -/

/-- Names stay through a computation, and if it ends at or before `last`, then with this result; from
`last` on, it has the result again and leaves everything as it is. -/
structure Settles (last : BlankNodes) (x : StateM BlankNodes α) (result : Id α) : Prop where
  keeps : ∀ blanks, BlankNodes.Keeps blanks (x blanks).2
  eq_result : ∀ blanks, BlankNodes.Keeps (x blanks).2 last → (x blanks).1 = result
  again : ∀ blanks, BlankNodes.Keeps (x blanks).2 last → x last = (result, last)

namespace Settles

variable {last : BlankNodes}

theorem pure (a : α) : Settles last (Pure.pure a) (Pure.pure a) where
  keeps := BlankNodes.Keeps.refl
  eq_result _ _ := rfl
  again _ _ := rfl

theorem bind {x : StateM BlankNodes α} {v : Id α} {f : α → StateM BlankNodes β} {g : α → Id β}
    (hx : Settles last x v) (hf : ∀ a, Settles last (f a) (g a)) :
    Settles last (x >>= f) (v >>= g) where
  keeps blanks := (hx.keeps blanks).trans ((hf _).keeps _)
  eq_result blanks h := by
    -- what the second step keeps up to the end, the first has kept
    have hv : (x blanks).1 = v := hx.eq_result blanks (((hf _).keeps _).trans h)
    have hf : (f (x blanks).1 (x blanks).2).1 = g (x blanks).1 := (hf _).eq_result _ h
    exact hf.trans (congrArg g hv)
  again blanks h := by
    have hbetween := ((hf _).keeps _).trans h
    have hv : (x blanks).1 = v := hx.eq_result blanks hbetween
    have hsecond : f (x blanks).1 last = (g (x blanks).1, last) := (hf _).again _ h
    rw [hv] at hsecond
    change f (x last).1 (x last).2 = (g v, last)
    rw [hx.again blanks hbetween]
    exact hsecond

theorem mapM {f : β → StateM BlankNodes α} {g : β → Id α} {l : List β}
    (h : ∀ b ∈ l, Settles last (f b) (g b)) : Settles last (l.mapM f) (l.mapM g) := by
  induction l with
  | nil => exact pure []
  | cons b rest ih =>
    rw [List.mapM_cons, List.mapM_cons]
    have hrest := ih fun c hc => h c (by simp [hc])
    exact (h b (by simp)).bind fun _ => hrest.bind fun _ => pure _

theorem ofConstant (place : Address) (seed : String) (rule : LabelRule) :
    Settles last (BlankNodes.ofConstant place seed rule)
      (BlankNodes.ofConstant place seed rule last).1 where
  keeps := BlankNodes.keeps_ofConstant place seed rule
  eq_result blanks h := by
    have hlast := h _ _ (BlankNodes.lookup_ofConstant place seed rule blanks)
    rw [BlankNodes.ofConstant_of_some hlast]
  again blanks h := by
    have hlast := h _ _ (BlankNodes.lookup_ofConstant place seed rule blanks)
    rw [BlankNodes.ofConstant_of_some hlast]

end Settles

/-! ## Terms -/

/-- A cell has a name, which the blank nodes of its rows are called by: it is an index, or it reads a
column whose name is not empty. -/
def CellSource.HasName (cell : CellSource) : Prop :=
  cell.isIndex = true ∨ ∃ name, cell.column = some name ∧ name ≠ ""

/-- If a node makes blank nodes of a cell, the cell has a name. -/
def Node.HasNames : Node → Prop
  | .resource (.cellBlank cell) _ _ => cell.HasName
  | _ => True

theorem BlankNodes.exists_ofCell {cell : CellSource} (h : cell.HasName) (row : Nat) :
    ∃ id, ofCell cell row = pure id := by
  unfold ofCell
  rcases h with h | ⟨name, hcolumn, hname⟩
  · cases hkind : cell.kind with
    | rowIndex => exact ⟨_, rfl⟩
    | recordIndex => exact ⟨_, rfl⟩
    | column | constant | expression => simp [CellSource.isIndex, SourceKind.isIndex, hkind] at h
  · obtain ⟨repaired, hrepaired⟩ := Iri.exists_ofText? hname
    rw [hcolumn, Option.bind_some, hrepaired]
    cases cell.kind <;> exact ⟨_, rfl⟩

/-- The terms of nodes when blank nodes are named already. -/
def settledTerms (ctx : Context) (last : BlankNodes) : Production Id :=
  fun place node row => (node.termsInRow ctx place row last).1

theorem Node.termsInRow_settles (ctx : Context) (last : BlankNodes) (place : Address) {node : Node}
    (h : node.HasNames) (row : Option Nat) :
    Settles last (node.termsInRow ctx place row) (settledTerms ctx last place node row) := by
  match node, row with
  | .literal maker, _ => exact Settles.pure _
  | .resource (.constantIri ..) _ _, _ => exact Settles.pure _
  | .resource (.constantBlank seed _ rule) _ _, _ =>
    exact (Settles.ofConstant place seed rule).bind fun _ => Settles.pure _
  | .resource (.cellIri ..) _ _, some _ | .resource (.cellIri ..) _ _, none => exact Settles.pure _
  | .resource (.cellBlank _) _ _, none => exact Settles.pure _
  | .resource (.cellBlank cell) _ _, some row =>
    obtain ⟨id, hid⟩ := BlankNodes.exists_ofCell h row
    rw [settledTerms]
    simp only [Node.termsInRow, ResourceMaker.terms, hid, pure_bind, List.mapM_pure]
    exact Settles.pure _

/-! ## Trees -/

theorem Settles.describe (ctx : Context) {last : BlankNodes} (subjects : List Term) (types : List IriName)
    {properties : StateM BlankNodes (List Triple)} {settled : Id (List Triple)}
    (h : Settles last properties settled) :
    Settles last (TableGraph.describe ctx subjects types properties)
      (TableGraph.describe ctx subjects types settled) := by
  unfold TableGraph.describe
  split
  · exact pure _
  · exact h.bind fun _ => pure _

theorem Settles.describeProperty (ctx : Context) {last : BlankNodes} (subjects : List Term)
    (name : IriName) {object : StateM BlankNodes Statements} {settled : Id Statements}
    (h : Settles last object settled) :
    Settles last (TableGraph.describeProperty ctx subjects name object)
      (TableGraph.describeProperty ctx subjects name settled) := by
  unfold TableGraph.describeProperty
  split
  · exact pure _
  · exact h.bind fun _ => pure _

section
variable (ctx : Context) (last : BlankNodes)

mutual

theorem Node.inRow_settles (place : Address) (row : Nat) (node : Node) (h : node.Every Node.HasNames) :
    Settles last (node.inRow ctx (Node.termsInRow ctx) place row)
      (node.inRow ctx (settledTerms ctx last) place row) := by
  match node with
  | .literal maker =>
    rw [Node.inRow, Node.inRow]
    have hterms := Node.termsInRow_settles ctx last place (Node.every_iff.1 h).1
    exact (hterms _).bind fun _ => Settles.pure _
  | .resource maker types properties =>
    rw [Node.inRow, Node.inRow]
    have hterms := Node.termsInRow_settles ctx last place (Node.every_iff.1 h).1
    refine (hterms _).bind fun subjects => ?_
    exact (propertiesInRow_settles place row subjects 0 properties h.2).describe ctx subjects types

theorem propertiesInRow_settles (place : Address) (row : Nat) (subjects : List Term) (number : Nat)
    (properties : List (IriName × Option Node)) (h : Node.EveryObject Node.HasNames properties) :
    Settles last (propertiesInRow ctx (Node.termsInRow ctx) place row subjects number properties)
      (propertiesInRow ctx (settledTerms ctx last) place row subjects number properties) := by
  match properties with
  | [] =>
    rw [propertiesInRow, propertiesInRow]
    exact Settles.pure _
  | (_, none) :: rest =>
    rw [propertiesInRow, propertiesInRow]
    exact propertiesInRow_settles place row subjects (number + 1) rest h
  | (name, some object) :: rest =>
    have hobject := Node.inRow_settles (number :: place) row object h.1
    have hrest := propertiesInRow_settles place row subjects (number + 1) rest h.2
    rw [propertiesInRow, propertiesInRow]
    exact (hobject.describeProperty ctx subjects name).bind fun _ => hrest.bind fun _ => Settles.pure _

end

theorem propertiesInRecord_settles (place : Address) (r : Record) (subjects : List Term) (number : Nat)
    (properties : List (IriName × Option Node)) (h : Node.EveryObject Node.HasNames properties) :
    Settles last (propertiesInRecord ctx (Node.termsInRow ctx) place r subjects number properties)
      (propertiesInRecord ctx (settledTerms ctx last) place r subjects number properties) := by
  induction properties generalizing number with
  | nil =>
    rw [propertiesInRecord, propertiesInRecord]
    exact Settles.pure _
  | cons property rest ih =>
    obtain ⟨name, object⟩ := property
    cases object with
    | none =>
      rw [propertiesInRecord, propertiesInRecord]
      exact ih (number + 1) h
    | some object =>
      have hrows := Settles.mapM (l := r.rows) fun row _ =>
        Node.inRow_settles ctx last (number :: place) row object h.1
      have hobject := hrows.bind fun parts => Settles.pure (Statements.concat parts)
      rw [propertiesInRecord, propertiesInRecord]
      refine (Settles.describeProperty ctx subjects name ?_).bind fun _ =>
        (ih (number + 1) h.2).bind fun _ => Settles.pure _
      exact hobject

theorem Node.termsInRecord_settles (place : Address) (r : Record) {node : Node} (h : node.HasNames) :
    Settles last (node.termsInRecord (Node.termsInRow ctx) place r)
      (node.termsInRecord (settledTerms ctx last) place r) := by
  have hrow := Node.termsInRow_settles ctx last place h
  unfold Node.termsInRecord
  split
  · exact hrow none
  split
  · split
    · exact Settles.pure _
    · exact hrow _
  · exact (Settles.mapM fun row _ => hrow (some row)).bind fun _ => Settles.pure _

theorem Node.inRecord_settles (place : Address) (r : Record) (node : Node) (h : node.Every Node.HasNames) :
    Settles last (node.inRecord ctx (Node.termsInRow ctx) place r)
      (node.inRecord ctx (settledTerms ctx last) place r) := by
  obtain ⟨hnode, hobjects⟩ := Node.every_iff.1 h
  rw [Node.inRecord, Node.inRecord]
  refine (Node.termsInRecord_settles ctx last place r hnode).bind fun subjects => ?_
  exact (propertiesInRecord_settles ctx last place r subjects 0 _ hobjects).describe ctx subjects _

theorem rootsInScope_settles (scope : Scope) (number : Nat) (roots : List Node)
    (h : ∀ root ∈ roots, root.Every Node.HasNames) :
    Settles last (rootsInScope ctx (Node.termsInRow ctx) scope number roots)
      (rootsInScope ctx (settledTerms ctx last) scope number roots) := by
  induction roots generalizing number with
  | nil =>
    rw [rootsInScope, rootsInScope]
    exact Settles.pure _
  | cons root rest ih =>
    have hroot : Settles last (root.inScope ctx (Node.termsInRow ctx) [number] scope)
        (root.inScope ctx (settledTerms ctx last) [number] scope) := by
      cases scope with
      | row row => exact Node.inRow_settles ctx last [number] row root (h root (by simp))
      | record r => exact Node.inRecord_settles ctx last [number] r root (h root (by simp))
    have hrest := ih (number + 1) fun other hother => h other (by simp [hother])
    rw [rootsInScope, rootsInScope]
    exact hroot.bind fun _ => hrest.bind fun _ => Settles.pure _

end

end TableGraph
