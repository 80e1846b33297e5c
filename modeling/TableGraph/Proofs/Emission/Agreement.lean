import TableGraph.Proofs.Emission.Offers

/-!
# Emission says what the tree says

Evaluating a node moves a cursor: it stands on a row, before a record, or on the rows of a record one
after the other, and objects are evaluated under the cursor in which producing the subjects left it.
-/

namespace TableGraph

open Emission (Offers Says Tells)

/-! ## Terms -/

theorem Node.terms_row (ctx : Context) (place : Address) (node : Node) (row : Nat) :
    node.terms ctx place (.row row) =
      (do return (← node.termsInRow ctx place (some row), .row row)) := by
  simp [Node.terms, Cursor.isRecordMode, Cursor.record?, Cursor.row?]

theorem Node.termsInRow_none (ctx : Context) (place : Address) {node : Node}
    (h : node.isConstant = false) : node.termsInRow ctx place none = pure [] := by
  match node with
  | .resource (.cellIri ..) _ _ | .resource (.cellBlank _) _ _ | .literal ⟨.cell _, _, _⟩ => rfl
  | .resource (.constantIri ..) _ _ | .resource (.constantBlank ..) _ _ | .literal ⟨.constant .., _, _⟩ =>
    simp [Node.isConstant, ResourceMaker.isConstant, LiteralMaker.isConstant] at h

theorem Cursor.next_record (r : Record) :
    (Cursor.record r none).next.2 = .record r (if r.isEmpty then none else some r.first) := by
  by_cases h : r.stop ≤ r.first
  · rw [Cursor.next_of_le rfl h]
    simp [Cursor.reset, Record.isEmpty, h]
  · rw [Cursor.next_of_lt rfl (Nat.not_le.1 h)]
    simp [Cursor.moveTo, Cursor.rowAfter, Cursor.row?, Record.isEmpty, h]

/-- Before a record, a node makes its terms over the record, and the cursor ends before the record. -/
theorem Node.terms_record (ctx : Context) (place : Address) (node : Node) (r : Record) :
    node.terms ctx place (.record r none) =
      (do return (← node.termsInRecord (Node.termsInRow ctx) place r, .record r none)) := by
  have hmode : (Cursor.record r none).isRecordMode = true := rfl
  unfold Node.terms Node.termsInRecord
  cases hconstant : node.isConstant with
  | true => rfl
  | false =>
    simp only [hmode, Bool.not_true, Bool.or_self, Bool.false_eq_true, if_false]
    split
    · -- an index reads the first row, and is taken off it
      rw [Cursor.next_record]
      cases r.isEmpty with
      | true => simp [Cursor.row?, Cursor.reset, Node.termsInRow_none ctx place hconstant]
      | false => simp [Cursor.row?, Cursor.reset]
    · -- a column reads every row, up to the end of the record
      rw [Cursor.walk_record, Cursor.leave_record, List.mapM_map]
      simp [Cursor.row?, Function.comp_def]

section
variable {σ : Type} [TripleSink σ] (ctx : Context)

/-! ## Subjects and properties -/

theorem says_describe {x : Emission σ Unit} {told : StateM BlankNodes (List Triple)} (h : x.Tells told)
    (subjects : List Term) (types : List IriName) :
    (if subjects.isEmpty = true then pure subjects
      else do
        Emission.offer (joinEach subjects Standard.rdfType (typeTerms ctx types))
        let _ ← x
        pure subjects : Emission σ (List Term)).Says (describe ctx subjects types told) := by
  intro blanks
  unfold describe
  split
  · rename_i hempty
    rw [List.isEmpty_iff.1 hempty]
    exact Offers.pure [] blanks
  · exact (Offers.offer _ blanks).bind ((h blanks).map fun _ => subjects)

theorem tells_link (subjects : List Term) (name : IriName) (objects : List Term) :
    (Emission.link ctx subjects name objects : Emission σ Unit).Tells
      (pure (linkTriples ctx subjects name objects)) := by
  unfold Emission.link
  split
  · rename_i hempty
    rw [List.isEmpty_iff.1 hempty, linkTriples_nil]
    exact Tells.nothing
  · cases h : ctx.naming.iri? name with
    | some property =>
      simp only [linkTriples, h]
      exact Tells.offer _
    | none =>
      simp only [linkTriples, h]
      exact Tells.nothing

/-- Evaluating the object of a property, and offering the links to it, tells what the property says;
then come the properties behind it. -/
theorem tells_property {place : Address} {subjects : List Term} {c : Cursor} {number : Nat}
    {name : IriName} {object : Node} {rest : List (IriName × Option Node)}
    {said : StateM BlankNodes Statements} {told : StateM BlankNodes (List Triple)}
    (hset : c.forObject.isSet = true)
    (hobject : (object.emit ctx (number :: place) c.forObject : Emission σ (List Term)).Says said)
    (hrest : (emitProperties ctx place subjects c (number + 1) rest : Emission σ Unit).Tells told) :
    (emitProperties ctx place subjects c number ((name, some object) :: rest) : Emission σ Unit).Tells
      (do
        let own ← describeProperty ctx subjects name said
        let more ← told
        return own ++ more) := by
  rw [emitProperties, describeProperty]
  split
  · simpa using hrest
  · have hown := hobject.bind_tells fun objects => tells_link ctx subjects name objects
    have hboth := hown.bind hrest
    simp only [hset, if_true, bind_assoc, pure_bind] at hboth ⊢
    exact hboth

/-! ## Rows -/

mutual

theorem Node.emit_row (place : Address) (row : Nat) (node : Node) :
    (node.emit ctx place (.row row) : Emission σ (List Term)).Says
      (node.inRow ctx (Node.termsInRow ctx) place row) := by
  match node with
  | .literal maker =>
    rw [Node.emit, Node.inRow, Node.terms_row]
    exact fun blanks => (Offers.naming _ blanks).bind (Offers.pure _ _)
  | .resource maker types properties =>
    rw [Node.emit, Node.inRow, Node.terms_row]
    exact Says.naming_bind fun subjects =>
      says_describe ctx (emitProperties_row place row (.row row) rfl subjects 0 properties) subjects types

theorem emitProperties_row (place : Address) (row : Nat) (c : Cursor) (hc : c.row? = some row)
    (subjects : List Term) (number : Nat) (properties : List (IriName × Option Node)) :
    (emitProperties ctx place subjects c number properties : Emission σ Unit).Tells
      (propertiesInRow ctx (Node.termsInRow ctx) place row subjects number properties) := by
  match properties with
  | [] =>
    rw [emitProperties, propertiesInRow]
    exact fun blanks => Offers.pure _ blanks
  | (_, none) :: rest =>
    rw [emitProperties, propertiesInRow]
    exact emitProperties_row place row c hc subjects (number + 1) rest
  | (name, some object) :: rest =>
    have hobject : c.forObject = .row row := by simp [Cursor.forObject, hc]
    rw [propertiesInRow]
    have hrest := emitProperties_row place row c hc subjects (number + 1) rest
    refine tells_property ctx (by rw [hobject]; rfl) ?_ hrest
    rw [hobject]
    exact Node.emit_row (number :: place) row object

end

/-! ## Records -/

theorem Node.emit_perRow (place : Address) (r : Record) (node : Node) :
    (node.emit ctx place (.perRow r none) : Emission σ (List Term)).Says
      (Statements.concat <$> r.rows.mapM fun row =>
        node.inRow ctx (Node.termsInRow ctx) place row) := by
  have hperRow : (Cursor.perRow r none).isPerRow = true := rfl
  match node with
  | .literal maker =>
    rw [Node.emit, if_pos hperRow, Cursor.walk_perRow, List.mapM_map]
    refine Says.mapM fun row _ => ?_
    rw [Node.inRow]
    exact Says.naming (σ := σ) (Node.termsInRow ctx place (.literal maker) (some row))
  | .resource maker types properties =>
    rw [Node.emit, if_pos hperRow, Cursor.walk_perRow, List.mapM_map]
    refine Says.mapM fun row _ => ?_
    rw [Node.inRow]
    exact Says.naming_bind fun subjects =>
      says_describe ctx (emitProperties_row ctx place row _ rfl subjects 0 properties) subjects types

theorem emitProperties_record (place : Address) (r : Record) (subjects : List Term) (number : Nat)
    (properties : List (IriName × Option Node)) :
    (emitProperties ctx place subjects (.record r none) number properties : Emission σ Unit).Tells
      (propertiesInRecord ctx (Node.termsInRow ctx) place r subjects number properties) := by
  induction properties generalizing number with
  | nil =>
    rw [emitProperties, propertiesInRecord]
    exact fun blanks => Offers.pure () blanks
  | cons property rest ih =>
    obtain ⟨name, object⟩ := property
    cases object with
    | none =>
      rw [emitProperties, propertiesInRecord]
      exact ih (number + 1)
    | some object =>
      rw [propertiesInRecord]
      exact tells_property ctx rfl (Node.emit_perRow ctx (number :: place) r object) (ih (number + 1))

/-- Before a record, a node says what it says over the record. -/
theorem Node.emit_record (place : Address) (r : Record) (node : Node) :
    (node.emit ctx place (.record r none) : Emission σ (List Term)).Says
      (node.inRecord ctx (Node.termsInRow ctx) place r) := by
  match node with
  | .literal maker =>
    rw [Node.emit, Node.inRecord, Node.terms_record]
    refine Says.naming_bind fun subjects => ?_
    rw [Node.properties, propertiesInRecord, Node.types, describe_nil]
    exact fun blanks => Offers.pure subjects blanks
  | .resource maker types properties =>
    rw [Node.emit, Node.inRecord, Node.terms_record]
    exact Says.naming_bind fun subjects =>
      says_describe ctx (emitProperties_record ctx place r subjects 0 properties) subjects types

/-! ## Scopes -/

theorem Node.emit_scope (place : Address) (node : Node) (scope : Scope) :
    (node.emit ctx place scope.cursor : Emission σ (List Term)).Says
      (node.statements ctx place scope) := by
  match scope with
  | .row row => exact Node.emit_row ctx place row node
  | .record r => exact Node.emit_record ctx place r node

theorem Transform.emitRoots_offers (t : Transform) (evaluate : Evaluator) (scope : Scope) (number : Nat)
    (roots : List Node) :
    (t.emitRoots evaluate scope number roots : Emission σ (List Term)).Says
      (rootsInScope ⟨t.naming, evaluate⟩ (Node.termsInRow ⟨t.naming, evaluate⟩) scope number roots) := by
  induction roots generalizing number with
  | nil => exact fun blanks => Offers.pure [] blanks
  | cons root rest ih =>
    rw [Transform.emitRoots, rootsInScope]
    intro blanks
    have hroot := Node.emit_scope (σ := σ) ⟨t.naming, evaluate⟩ [number] root scope blanks
    exact hroot.bind ((ih (number + 1) _).map _)

/-- Applying a transform says what the transform says. -/
theorem Transform.apply_offers (t : Transform) (evaluate : Evaluator) (scope : Scope) :
    (t.apply evaluate scope : Emission σ (List Term)).Says (t.statements evaluate scope) :=
  t.emitRoots_offers evaluate scope 0 t.roots

end

theorem Emission.Offers.graph {x : Emission Graph α} {before after : BlankNodes} {a : α}
    {triples : List Triple} (h : x.Offers before a triples after) (g : Graph) :
    x ⟨g, before⟩ = (.ok a, ⟨{ g with triples := g.triples ++ triples.toArray }, after⟩) := by
  have hg := h g
  rwa [Graph.offerAll_eq] at hg

/-- **Emission follows the tree.** In a row, and over a record that may also be empty or reversed, a node
makes the terms of its tree and emits exactly the triples of its tree, in that order: a graph collects
all of them, and any other sink is offered them up to the first that it refuses. -/
theorem emit_eq_statements (ctx : Context) (place : Address) (node : Node) (scope : Scope)
    (blanks : BlankNodes) :
    let said := node.statements ctx place scope blanks
    (∀ g : Graph, node.emit ctx place scope.cursor ⟨g, blanks⟩ =
      (.ok said.1.terms, ⟨{ g with triples := g.triples ++ said.1.triples.toArray }, said.2⟩)) ∧
    ∀ (σ : Type) [TripleSink σ] (sink : σ),
      match TripleSink.offerAll said.1.triples sink with
      | (.ok (), sink') =>
        node.emit ctx place scope.cursor ⟨sink, blanks⟩ = (.ok said.1.terms, ⟨sink', said.2⟩)
      | (.error e, sink') =>
        ∃ left, node.emit ctx place scope.cursor ⟨sink, blanks⟩ = (.error e, ⟨sink', left⟩) := by
  intro said
  refine ⟨fun g => ?_, fun σ _ sink => ?_⟩
  · exact (Node.emit_scope ctx place node scope blanks).graph g
  · exact Node.emit_scope ctx place node scope blanks sink

end TableGraph
