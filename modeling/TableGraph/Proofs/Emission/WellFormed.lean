import TableGraph.Proofs.Document.Loaded
import TableGraph.Proofs.Emission.Invariants
import TableGraph.Proofs.Emission.Refusal
import TableGraph.Proofs.Naming.WellFormed

/-!
# Everything emitted is well-formed

Every node makes well-formed terms, and resource nodes make no literals, as long as the labels that
constants were given are well-formed. Evaluation keeps them so, also where a sink stops it, and so every
triple that any sink is ever offered is well-formed (`offers_isWellFormed`).
-/

namespace TableGraph

open Emission (Maintains)
open TripleSink (offer)

/-- Labels of constants are well-formed, and something holds of the sink. -/
def LabelsAnd (good : σ → Prop) (pass : Pass σ) : Prop :=
  pass.blanks.AreWellFormed ∧ good pass.sink

section
variable {ctx : Context} {good : σ → Prop}

/-! ## Terms of nodes -/

theorem maintains_id (good : σ → Prop) {x : StateM BlankNodes BlankId}
    (h : ∀ blanks : BlankNodes, blanks.AreWellFormed →
      (x blanks).2.AreWellFormed ∧ (x blanks).1.IsWellFormed) :
    Maintains (LabelsAnd good) BlankId.IsWellFormed (Emission.naming x) := by
  refine Maintains.naming fun pass hpass => ?_
  obtain ⟨hblanks, hid⟩ := h pass.blanks hpass.1
  exact ⟨⟨hblanks, hpass.2⟩, hid⟩

theorem ResourceMaker.terms_wellFormed (hbase : ctx.naming.base.IsValid) (place : Address)
    (maker : ResourceMaker) (row : Option Nat) :
    Maintains (LabelsAnd good) (fun terms => ∀ term ∈ terms, term.IsSubject)
      (Emission.naming (maker.terms ctx place row)) := by
  unfold ResourceMaker.terms
  split
  · refine Maintains.pure fun term hterm => ?_
    split at hterm
    · cases hterm
    · apply Term.isSubject_of_exists_iri
      exact Naming.exists_iri_of_resourceOfValue? hbase (Option.mem_toList.1 hterm)
  · rename_i seed _ rule
    have hid := maintains_id good fun _ => BlankNodes.ofConstant_wellFormed place seed rule
    rw [Emission.naming_bind]
    refine hid.bind fun id hid => Maintains.pure ?_
    intro term hterm
    obtain rfl := List.mem_singleton.1 hterm
    exact ⟨rfl, hid⟩
  · refine Maintains.pure fun term hterm => ?_
    obtain ⟨value, -, hvalue⟩ := List.mem_filterMap.1 hterm
    apply Term.isSubject_of_exists_iri
    exact Naming.exists_iri_of_resourceOfValue? hbase hvalue
  · rename_i cell row
    have hid := maintains_id good fun _ => BlankNodes.ofCell_wellFormed cell row
    rw [Emission.naming_mapM]
    refine Maintains.mapM fun _ _ => ?_
    rw [Emission.naming_bind]
    exact hid.bind fun id hid => Maintains.pure ⟨rfl, hid⟩
  · exact Maintains.pure (List.forall_mem_nil _)
  · exact Maintains.pure (List.forall_mem_nil _)

theorem LiteralMaker.terms_wellFormed (hbase : ctx.naming.base.IsValid) (maker : LiteralMaker)
    (row : Option Nat) :
    ∀ term ∈ maker.terms ctx row, term.IsWellFormed := by
  intro term hterm
  unfold LiteralMaker.terms at hterm
  split at hterm
  · exact Naming.isWellFormed_of_literal? hbase (Option.mem_toList.1 hterm)
  · obtain ⟨value, -, hvalue⟩ := List.mem_filterMap.1 hterm
    exact Naming.isWellFormed_of_literal? hbase hvalue
  · cases hterm

/-- Over a valid base, evaluation upholds well-formedness, if being offered well-formed triples keeps
what holds of the sink. -/
theorem upholds_wellFormed [TripleSink σ] (hbase : ctx.naming.base.IsValid) (good : σ → Prop)
    (hgood : ∀ t : Triple, t.IsWellFormed → ∀ sink : σ, good sink → good (offer t sink).2) :
    ctx.Upholds (LabelsAnd good) Term.IsSubject Term.IsWellFormed where
  naming place node row := by
    cases node with
    | resource maker types properties =>
      exact (maker.terms_wellFormed hbase place row).mono fun terms hterms term hterm =>
        ⟨(hterms term hterm).2, fun _ => hterms term hterm⟩
    | literal maker =>
      refine Maintains.pure fun term hterm => ?_
      exact ⟨maker.terms_wellFormed hbase row term hterm, fun h => by cases h⟩
  named _ _ hiri := Naming.isAbsolute_of_iri? hbase hiri
  offered s property o hs ho hproperty pass hpass := by
    have habsolute : Iri.IsAbsolute property := by
      rcases hproperty with rfl | ⟨name, hname⟩
      · exact Standard.isAbsolute_rdfType
      · exact Naming.isAbsolute_of_iri? hbase hname
    have htriple : Triple.IsWellFormed ⟨s, property, o⟩ := ⟨hs.1, hs.2, habsolute, ho⟩
    exact ⟨hpass.1, hgood ⟨s, property, o⟩ htriple pass.sink hpass.2⟩

end

/-! ## Blank nodes in use -/

/-- What can have become of the blank nodes of transforms in use: none is named at first, and then roots
are evaluated, one after the other, in any scopes, and stopped by their sinks anywhere. -/
inductive BlankNodes.Reachable : BlankNodes → Prop
  | fresh : Reachable .fresh
  | root {σ : Type} [TripleSink σ] {t : Transform} (hbase : t.naming.base.IsRead) (evaluate : Evaluator)
    (scope : Scope) (number : Nat) (root : Node) (sink : σ) {blanks : BlankNodes} :
    Reachable blanks → Reachable (t.emitRoot evaluate scope number root ⟨sink, blanks⟩).2.blanks

theorem Iri.IsRead.isValid {iri : Iri} (h : iri.IsRead) : iri.IsValid := by
  obtain ⟨text, htext⟩ := h
  exact isValid_of_read htext

theorem BlankNodes.Reachable.areWellFormed {blanks : BlankNodes} (h : blanks.Reachable) :
    blanks.AreWellFormed := by
  induction h with
  | fresh => exact areWellFormed_fresh
  | @root σ _ t hbase evaluate scope number root sink _ _ ih =>
    have hupholds : Context.Upholds ⟨t.naming, evaluate⟩ _ _ _ :=
      upholds_wellFormed hbase.isValid (fun _ : σ => True) fun _ _ _ h => h
    exact (Node.emit_maintains hupholds [number] root scope ⟨sink, _⟩ ⟨ih, trivial⟩).1.1

theorem Transform.reachable_apply [TripleSink σ] {t : Transform} (hbase : t.naming.base.IsRead)
    (evaluate : Evaluator) (scope : Scope) :
    Maintains (fun pass : Pass σ => pass.blanks.Reachable) (fun _ => True) (t.apply evaluate scope) := by
  have hroots (number : Nat) (roots : List Node) : Maintains (fun pass : Pass σ => pass.blanks.Reachable)
      (fun _ => True) (t.emitRoots evaluate scope number roots) := by
    induction roots generalizing number with
    | nil => exact Maintains.pure trivial
    | cons root rest ih =>
      have hroot : Maintains (fun pass : Pass σ => pass.blanks.Reachable) (fun _ => True)
          (t.emitRoot evaluate scope number root) := fun pass hpass =>
        ⟨.root hbase evaluate scope number root pass.sink hpass, fun _ _ => trivial⟩
      rw [emitRoots]
      exact hroot.bind fun _ _ => (ih (number + 1)).bind fun _ _ => Maintains.pure trivial
  exact hroots 0 t.roots

/-! ## Applications -/

/-- **Everything emitted is well-formed.** Whatever a transform was used for before, and whatever its
evaluator makes of the cells, an application to a row or a record offers its sink triples with a
subject that is no literal, an absolute IRI for a property, absolute IRIs and datatypes, literals that
are not empty and whose language is that of a language string, and labels with characters that show.
So are the terms returned, and the transform can be used again. -/
theorem offers_isWellFormed [TripleSink σ] (t : Transform) (hbase : t.naming.base.IsRead)
    (evaluate : Evaluator) (scope : Scope) {blanks : BlankNodes} (hblanks : blanks.Reachable) (sink : σ) :
    let run := t.apply evaluate scope ⟨(⟨sink, []⟩ : Watched σ), blanks⟩
    (∀ o ∈ run.2.sink.offers, o.1.IsWellFormed) ∧
      (∀ terms, run.1 = .ok terms → ∀ term ∈ terms, term.IsWellFormed) ∧
      run.2.blanks.Reachable := by
  intro run
  have hupholds : Context.Upholds ⟨t.naming, evaluate⟩ _ _ _ :=
    upholds_wellFormed hbase.isValid (fun watched : Watched σ => ∀ o ∈ watched.offers, o.1.IsWellFormed) (by
      intro triple htriple watched hwatched o ho
      rcases List.mem_append.1 ho with ho | ho
      · exact hwatched o ho
      · obtain rfl := List.mem_singleton.1 ho
        exact htriple)
  have hnone : ∀ o ∈ ([] : List (Triple × Answer)), o.1.IsWellFormed := fun _ ho =>
    absurd ho List.not_mem_nil
  have hmaintains := t.apply_maintains hupholds scope ⟨⟨sink, []⟩, blanks⟩ ⟨hblanks.areWellFormed, hnone⟩
  have hreachable := Transform.reachable_apply hbase evaluate scope ⟨(⟨sink, []⟩ : Watched σ), blanks⟩ hblanks
  exact ⟨hmaintains.1.2, hmaintains.2, hreachable.1⟩

/-- A resource with a type, a blank node and two literals. -/
theorem offers_isWellFormed_resource :
    let cell : CellSource := .ofColumn "a b"
    let t : Transform := ⟨⟨Transform.defaultBase, .predefined⟩,
      [.resource (.cellIri cell (some "foaf")) [⟨some "owl", "Thing"⟩]
        [(⟨none, "p"⟩, some (.resource (.cellBlank cell) [] [])),
          (⟨none, "q"⟩, some (.literal ⟨.cell cell, some ⟨none, "xsd:integer"⟩, none⟩)),
          (⟨none, "r"⟩, some (.literal ⟨.constant "seven" .cellValue, none, some "en"⟩))]],
      Transform.currentVersion⟩
    let evaluate : Evaluator := fun _ _ _ => .ok (.string "7")
    let run := t.apply evaluate (.row 1) ⟨(⟨Graph.empty, []⟩ : Watched Graph), .fresh⟩
    let seven : Term := .iri "http://xmlns.com/foaf/0.1/7"
    run.2.sink.offers.map (·.1) =
      [⟨seven, Standard.rdfType, .iri "http://www.w3.org/2002/07/owl#Thing"⟩,
        ⟨seven, "http://localhost:3333/p", .blank ⟨"a_b_1"⟩⟩,
        ⟨seven, "http://localhost:3333/q", .typed "7" "http://www.w3.org/2001/XMLSchema#integer"⟩,
        ⟨seven, "http://localhost:3333/r", .langString "seven" "en"⟩] ∧
      ∀ o ∈ run.2.sink.offers, o.1.IsWellFormed := by
  intro cell t evaluate run seven
  obtain ⟨hwell, -⟩ := offers_isWellFormed t Document.isRead_defaultBase evaluate (.row 1) .fresh
    Graph.empty
  refine ⟨by decide +kernel, ?_⟩
  -- the run is the same as it stands, and must not be unfolded
  with_reducible exact hwell

end TableGraph
