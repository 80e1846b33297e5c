import TableGraph.Proofs.Document.Loaded
import TableGraph.Proofs.Emission.Refusal
import TableGraph.Proofs.History.Steps
import TableGraph.Proofs.Mapping.Trees
import TableGraph.Proofs.Naming.Production

/-!
# Applying a transform again

Constants keep their blank nodes all the life of a transform (`Transform.keeps_after`). In a transform that
was loaded, the blank nodes of cells have names, so only constants can be anonymous, and each of them is
named once. An application that was made before therefore makes the same terms and triples again, and no
new blank nodes (`reapply_reproduces`).
-/

namespace TableGraph

open TripleSink (offer)

/-! ## Names stay in steps -/

theorem Transform.follows_keeps (t : Transform) : t.Follows fun before _ after => before.Keeps after where
  nothing := BlankNodes.Keeps.refl
  append := BlankNodes.Keeps.trans
  made _ evaluate row blanks := Node.keeps_termsInRow ⟨t.naming, evaluate⟩ _ row blanks

theorem Transform.keeps_after (t : Transform) (steps : List Step) (blanks : BlankNodes) :
    blanks.Keeps (t.after steps blanks) :=
  t.follows_keeps.steps steps blanks

/-! ## Names of cells -/

theorem CellSource.IsRegular.hasName {cell : CellSource} (h : cell.IsRegular) : cell.HasName := by
  rcases h with ⟨hindex, -⟩ | ⟨-, hcolumn⟩
  · exact .inl hindex
  · exact .inr hcolumn

theorem Node.IsRegular.hasNames {rule : LabelRule} {expressions : Expression → Prop} {node : Node}
    (h : node.IsRegular rule expressions) : node.HasNames := by
  match node with
  | .resource (.cellBlank cell) _ _ => exact CellSource.IsRegular.hasName h.2.1
  | .resource (.constantIri ..) _ _ | .resource (.constantBlank ..) _ _ | .resource (.cellIri ..) _ _
  | .literal _ => trivial

theorem Transform.hasNames_of_ofJson {read : ClassReader} {config : Config} {v : Json} {t : Transform}
    (h : Transform.ofJson config v read = .ok t) : ∀ root ∈ t.roots, root.Every Node.HasNames := by
  obtain ⟨rule, -, hregular⟩ := Transform.isRegular_of_ofJson h
  exact fun root hroot => (hregular.nodes root hroot).imp fun _ => Node.IsRegular.hasNames

/-! ## Repeated applications -/

/-- What an application says, it says again from any blank nodes in which the names that it gave stand,
and then it names nothing. -/
theorem Transform.statements_again (t : Transform) (evaluate : Evaluator) (scope : Scope)
    (hnames : ∀ root ∈ t.roots, root.Every Node.HasNames) {blanks later : BlankNodes}
    (hkeeps : (t.statements evaluate scope blanks).2.Keeps later) :
    t.statements evaluate scope later = ((t.statements evaluate scope blanks).1, later) := by
  have hsettles := rootsInScope_settles ⟨t.naming, evaluate⟩ later scope 0 t.roots hnames
  have hagain : t.statements evaluate scope later = _ := hsettles.again blanks hkeeps
  have hfirst : (t.statements evaluate scope blanks).1 = _ := hsettles.eq_result blanks hkeeps
  rw [hagain, hfirst]

theorem Emission.Offers.watched [TripleSink σ]
    (hsink : ∀ triple (s : σ), (TripleSink.offer triple s).1 = .ok ()) {x : Emission (Watched σ) α}
    {before after : BlankNodes} {a : α} {triples : List Triple} (h : x.Offers before a triples after)
    (sink : σ) :
    x ⟨⟨sink, []⟩, before⟩ =
      (.ok a, ⟨⟨(TripleSink.offerAll triples sink).2, triples.map fun triple => (triple, .ok ())⟩, after⟩) := by
  have haccepted := TripleSink.offerAll_ok hsink triples sink
  have hrun := h ⟨sink, []⟩
  rw [Watched.offerAll_eq, haccepted, Watched.answers_of_ok haccepted] at hrun
  exact hrun

/-- **What was applied once is applied alike ever after.** A transform that was loaded is applied to a row
or record, with a sink that refuses nothing, after whatever use, used in whatever steps, and applied there
again: it returns the same terms, offers the same triples in the same order, and no blank node is made. -/
theorem reapply_reproduces [TripleSink σ] (hsink : ∀ triple (s : σ), (offer triple s).1 = .ok ())
    {read : ClassReader} {config : Config} {v : Json} {t : Transform}
    (hload : Transform.ofJson config v read = .ok t)
    (evaluate : Evaluator) (scope : Scope) (blanks : BlankNodes) (steps : List Step) (sink sink' : σ) :
    let first := t.apply evaluate scope ⟨(⟨sink, []⟩ : Watched σ), blanks⟩
    let between := t.after steps first.2.blanks
    let again := t.apply evaluate scope ⟨(⟨sink', []⟩ : Watched σ), between⟩
    ∃ terms, first.1 = .ok terms ∧ again.1 = .ok terms ∧
      again.2.sink.offers = first.2.sink.offers ∧ again.2.blanks = between := by
  intro first between again
  have hoffers (blanks : BlankNodes) := t.apply_offers (σ := Watched σ) evaluate scope blanks
  have hfirst : first = _ := Emission.Offers.watched hsink (hoffers blanks) sink
  have hagain : again = _ := Emission.Offers.watched hsink (hoffers between) sink'
  have hkeeps : (t.statements evaluate scope blanks).2.Keeps between := by
    have hafter : first.2.blanks = (t.statements evaluate scope blanks).2 := by rw [hfirst]
    rw [← hafter]
    exact t.keeps_after steps first.2.blanks
  rw [t.statements_again evaluate scope (Transform.hasNames_of_ofJson hload) hkeeps] at hagain
  refine ⟨(t.statements evaluate scope blanks).1.terms, ?_, ?_, ?_, ?_⟩
  · rw [hfirst]
  · rw [hagain]
  · rw [hagain, hfirst]
  · rw [hagain]

/-- A root that is an anonymous constant, with names from a column. -/
theorem reapply_reproduces_anonymous :
    let source (entries : List (String × Json)) : String × Json := ("valueSource", .object entries)
    let kind (name : String) : String × Json := ("valueType", .object [("type", .string name)])
    let name : Json := .object
      [source [("source", .string "column"), ("columnName", .string "name")], kind "literal"]
    let property : Json := .object
      [source [("source", .string "constant"), ("constant", .string "p")], ("objectMappings", .array [name])]
    let root : Json := .object
      [source [("source", .string "constant"), ("constant", .string "-")], kind "value_bnode",
        ("propertyMappings", .array [property])]
    let v : Json := .object [("subjectMappings", .array [root])]
    let t : Transform := ⟨⟨Transform.defaultBase, .predefined⟩,
      [.resource (.constantBlank "-" .cellValue .standard) []
        [(⟨none, "p"⟩, some (.literal ⟨.cell (.ofColumn "name"), none, none⟩))]], Transform.currentVersion⟩
    let evaluate : Evaluator := fun _ _ row => .ok (.string (if row = 0 then "a" else "b"))
    let steps : List Step := [.previewed evaluate {} [.row 1], .applied evaluate (.row 1) (Store.empty (some 0))]
    let first := t.apply evaluate (.row 0) ⟨(⟨.empty, []⟩ : Watched Graph), .fresh⟩
    let between := t.after steps first.2.blanks
    let again := t.apply evaluate (.row 0) ⟨(⟨.empty, []⟩ : Watched Graph), between⟩
    let own : Term := .blank ⟨BlankNodes.anonymousLabel 0⟩
    (∀ triple (g : Graph), (offer triple g).1 = .ok ()) ∧ Transform.ofJson {} v = .ok t ∧
      again.1 = .ok [own] ∧ again.2.sink.offers.map (·.1) = [⟨own, "http://localhost:3333/p", .plain "a"⟩] ∧
      again.2.blanks = between ∧ between.minted = 1 := by
  intro source kind name property root v t evaluate steps first between again own
  have haccepts : ∀ triple (g : Graph), (offer triple g).1 = .ok () := fun _ _ => rfl
  have hload : Transform.ofJson {} v = .ok t := by
    apply Outcome.toOption_eq_some_iff.1
    decide +kernel
  have hterms : first.1 = .ok [own] := by
    apply Outcome.toOption_eq_some_iff.1
    decide +kernel
  have hoffers : first.2.sink.offers.map (·.1) = [⟨own, "http://localhost:3333/p", .plain "a"⟩] := by
    decide +kernel
  have hminted : between.minted = 1 := by decide +kernel
  obtain ⟨terms, hfirst, hagain, hsame, hblanks⟩ :=
    reapply_reproduces haccepts hload evaluate (.row 0) .fresh steps Graph.empty Graph.empty
  have hown := hfirst.symm.trans hterms
  have hsameTriples := (congrArg (List.map (·.1)) hsame).trans hoffers
  -- the runs are the same as they stand, and must not be unfolded
  refine ⟨haccepts, hload, ?_, ?_, ?_, hminted⟩
  · with_reducible exact hagain.trans hown
  · with_reducible exact hsameTriples
  · with_reducible exact hblanks

end TableGraph
