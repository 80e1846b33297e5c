import TableGraph.Proofs.Emission.Agreement
import TableGraph.Proofs.Emission.Settled

/-!
# Rows and records

A record of one row says what the row says. A record of several rows joins subjects and objects across
its rows, so it says at least what its rows say; where the subjects are constants, it says no more.
What applications on different rows say can be compared only when the blank nodes of constants are the
same in all of them, so a transform is applied in a `session`, in which names are kept.

Main facts: `Node.inRecord_single`, `mem_inRecord_of_row`, `exists_row_of_mem_inRecord`, and their form
for applications, `rows_records_agree`.
-/

namespace TableGraph

/-! ## Rows of records -/

theorem Record.rows_single (row : Nat) : (Record.mk row (row + 1)).rows = [row] := by
  simp [Record.rows, Record.size]

theorem Node.isIndex_of_isConstant {node : Node} (h : node.isConstant = true) : node.isIndex = false := by
  match node with
  | .resource (.constantIri ..) _ _ | .resource (.constantBlank ..) _ _ | .literal ⟨.constant .., _, _⟩ => rfl
  | .resource (.cellIri ..) _ _ | .resource (.cellBlank _) _ _ | .literal ⟨.cell _, _, _⟩ =>
    simp [Node.isConstant, ResourceMaker.isConstant, LiteralMaker.isConstant] at h

/-! ## A record of one row -/

section
variable {m : Type → Type} [Monad m] [LawfulMonad m] (ctx : Context) {produce : Production m}

/-- The terms of constants do not depend on the row. -/
def Production.FixesConstants (produce : Production m) : Prop :=
  ∀ place node row, node.isConstant = true → produce place node row = produce place node none

theorem Node.inRow_eq (place : Address) (row : Nat) (node : Node) :
    node.inRow ctx produce place row = (do
      let subjects ← produce place node (some row)
      describe ctx subjects node.types
        (propertiesInRow ctx produce place row subjects 0 node.properties)) := by
  cases node with
  | resource maker types properties => rw [Node.inRow, Node.types, Node.properties]
  | literal maker =>
    rw [Node.inRow, Node.types, Node.properties]
    simp only [propertiesInRow, describe_nil]

theorem Node.termsInRecord_single (hfixed : produce.FixesConstants) (place : Address) (row : Nat)
    (node : Node) :
    node.termsInRecord produce place ⟨row, row + 1⟩ = produce place node (some row) := by
  have hempty : (Record.mk row (row + 1)).isEmpty = false := by simp [Record.isEmpty]
  unfold Node.termsInRecord
  split
  · rename_i hconstant
    exact (hfixed place node (some row) hconstant).symm
  split
  · rw [hempty]
    rfl
  · rw [Record.rows_single]
    simp

theorem propertiesInRecord_single (place : Address) (row : Nat) (subjects : List Term) (number : Nat)
    (properties : List (IriName × Option Node)) :
    propertiesInRecord ctx produce place ⟨row, row + 1⟩ subjects number properties =
      propertiesInRow ctx produce place row subjects number properties := by
  induction properties generalizing number with
  | nil => rw [propertiesInRecord, propertiesInRow]
  | cons property rest ih =>
    obtain ⟨name, object⟩ := property
    cases object with
    | none => rw [propertiesInRecord, propertiesInRow, ih]
    | some object =>
      have hobject : (Statements.concat <$> [row].mapM fun row =>
          object.inRow ctx produce (number :: place) row) = object.inRow ctx produce (number :: place) row := by
        simp [Statements.concat]
      rw [propertiesInRecord, propertiesInRow, Record.rows_single, hobject, ih]

theorem Node.inRecord_single (hfixed : produce.FixesConstants) (place : Address) (row : Nat)
    (node : Node) :
    node.inRecord ctx produce place ⟨row, row + 1⟩ = node.inRow ctx produce place row := by
  rw [Node.inRecord, Node.inRow_eq, Node.termsInRecord_single hfixed]
  simp only [propertiesInRecord_single]

theorem rootsInScope_single (hfixed : produce.FixesConstants) (row number : Nat) (roots : List Node) :
    rootsInScope ctx produce (.record ⟨row, row + 1⟩) number roots =
      rootsInScope ctx produce (.row row) number roots := by
  induction roots generalizing number with
  | nil => rw [rootsInScope, rootsInScope]
  | cons root rest ih =>
    rw [rootsInScope, rootsInScope, ih, Node.inScope, Node.inScope, Node.inRecord_single ctx hfixed]

end

theorem fixesConstants_termsInRow (ctx : Context) : Production.FixesConstants (Node.termsInRow ctx) := by
  intro place node row h
  match node with
  | .resource (.constantIri ..) _ _ | .resource (.constantBlank ..) _ _ | .literal ⟨.constant .., _, _⟩ => rfl
  | .resource (.cellIri ..) _ _ | .resource (.cellBlank _) _ _ | .literal ⟨.cell _, _, _⟩ =>
    simp [Node.isConstant, ResourceMaker.isConstant, LiteralMaker.isConstant] at h

theorem fixesConstants_settledTerms (ctx : Context) (last : BlankNodes) :
    (settledTerms ctx last).FixesConstants := by
  intro place node row h
  rw [settledTerms, settledTerms, fixesConstants_termsInRow ctx place node row h]

theorem Transform.statements_single (t : Transform) (evaluate : Evaluator) (row : Nat) :
    t.statements evaluate (.record ⟨row, row + 1⟩) = t.statements evaluate (.row row) :=
  rootsInScope_single _ (fixesConstants_termsInRow _) row 0 t.roots

/-! ## Membership -/

theorem joinEach_subset {subjects subjects' objects objects' : List Term} (hs : subjects ⊆ subjects')
    (ho : objects ⊆ objects') (property : String) :
    joinEach subjects property objects ⊆ joinEach subjects' property objects' := by
  intro x hx
  obtain ⟨s, hs', o, ho', rfl⟩ := mem_joinEach.1 hx
  exact mem_joinEach.2 ⟨s, hs hs', o, ho ho', rfl⟩

theorem mem_linkTriples {ctx : Context} {subjects objects : List Term} {name : IriName} {x : Triple} :
    x ∈ linkTriples ctx subjects name objects ↔
      ∃ property, ctx.naming.iri? name = some property ∧ x ∈ joinEach subjects property objects := by
  unfold linkTriples
  cases ctx.naming.iri? name <;> simp

theorem linkTriples_subset (ctx : Context) {subjects subjects' objects objects' : List Term}
    (hs : subjects ⊆ subjects') (ho : objects ⊆ objects') (name : IriName) :
    linkTriples ctx subjects name objects ⊆ linkTriples ctx subjects' name objects' := by
  intro x hx
  obtain ⟨property, hproperty, hx⟩ := mem_linkTriples.1 hx
  exact mem_linkTriples.2 ⟨property, hproperty, joinEach_subset hs ho property hx⟩

theorem exists_row_of_mem_linkTriples {ctx : Context} {subjects : List Term} {name : IriName}
    {rows : List Nat} {objects : Nat → List Term} {x : Triple}
    (h : x ∈ linkTriples ctx subjects name (rows.flatMap objects)) :
    ∃ row ∈ rows, x ∈ linkTriples ctx subjects name (objects row) := by
  obtain ⟨property, hproperty, hx⟩ := mem_linkTriples.1 h
  obtain ⟨s, hs, o, ho, rfl⟩ := mem_joinEach.1 hx
  obtain ⟨row, hrow, ho⟩ := List.mem_flatMap.1 ho
  exact ⟨row, hrow, mem_linkTriples.2 ⟨property, hproperty, mem_joinEach.2 ⟨s, hs, o, ho, rfl⟩⟩⟩

section
variable (ctx : Context) {produce : Production Id} {place : Address} {x : Triple}

theorem mem_describe {subjects : List Term} {types : List IriName} {properties : Id (List Triple)} :
    x ∈ (describe ctx subjects types properties).run.triples ↔
      subjects ≠ [] ∧ (x ∈ typeTriples ctx subjects types ∨ x ∈ properties.run) := by
  cases subjects with
  | nil => simp [describe, Statements.nothing]
  | cons s rest => simp [describe]

theorem mem_describeProperty {subjects : List Term} {name : IriName} {object : Id Statements} :
    x ∈ (describeProperty ctx subjects name object).run ↔
      name.isBlank = false ∧
        (x ∈ object.run.triples ∨ x ∈ linkTriples ctx subjects name object.run.terms) := by
  cases h : name.isBlank <;> simp [describeProperty, h]

theorem mem_propertiesInRow_cons {row : Nat} {subjects : List Term} {number : Nat} {name : IriName}
    {object : Node} {rest : List (IriName × Option Node)} :
    x ∈ (propertiesInRow ctx produce place row subjects number ((name, some object) :: rest)).run ↔
      (name.isBlank = false ∧
        (x ∈ (object.inRow ctx produce (number :: place) row).run.triples ∨
          x ∈ linkTriples ctx subjects name (object.inRow ctx produce (number :: place) row).run.terms)) ∨
      x ∈ (propertiesInRow ctx produce place row subjects (number + 1) rest).run := by
  rw [propertiesInRow]
  simp [mem_describeProperty]

theorem mem_propertiesInRecord_cons {r : Record} {subjects : List Term} {number : Nat} {name : IriName}
    {object : Node} {rest : List (IriName × Option Node)} :
    x ∈ (propertiesInRecord ctx produce place r subjects number ((name, some object) :: rest)).run ↔
      (name.isBlank = false ∧
        ((∃ row ∈ r.rows, x ∈ (object.inRow ctx produce (number :: place) row).run.triples) ∨
          x ∈ linkTriples ctx subjects name (r.rows.flatMap fun row =>
            (object.inRow ctx produce (number :: place) row).run.terms))) ∨
      x ∈ (propertiesInRecord ctx produce place r subjects (number + 1) rest).run := by
  rw [propertiesInRecord]
  simp [mem_describeProperty, Statements.concat, List.flatMap_map]

/-! ## What a record says more -/

theorem mem_propertiesInRecord_of_row {r : Record} {row : Nat} (hrow : row ∈ r.rows)
    {subjects subjects' : List Term} (hs : subjects ⊆ subjects') {number : Nat}
    {properties : List (IriName × Option Node)}
    (h : x ∈ (propertiesInRow ctx produce place row subjects number properties).run) :
    x ∈ (propertiesInRecord ctx produce place r subjects' number properties).run := by
  induction properties generalizing number with
  | nil =>
    rw [propertiesInRow] at h
    simp at h
  | cons property rest ih =>
    obtain ⟨name, object⟩ := property
    cases object with
    | none =>
      rw [propertiesInRow] at h
      rw [propertiesInRecord]
      exact ih h
    | some object =>
      rw [mem_propertiesInRecord_cons]
      rcases (mem_propertiesInRow_cons ctx).1 h with ⟨hname, hobject | hlink⟩ | hrest
      · exact .inl ⟨hname, .inl ⟨row, hrow, hobject⟩⟩
      · refine .inl ⟨hname, .inr (linkTriples_subset ctx hs ?_ name hlink)⟩
        exact fun o ho => List.mem_flatMap.2 ⟨row, hrow, ho⟩
      · exact .inr (ih hrest)

theorem exists_row_of_mem_propertiesInRecord {r : Record} {subjects : List Term} {number : Nat}
    {properties : List (IriName × Option Node)}
    (h : x ∈ (propertiesInRecord ctx produce place r subjects number properties).run) :
    ∃ row ∈ r.rows, x ∈ (propertiesInRow ctx produce place row subjects number properties).run := by
  induction properties generalizing number with
  | nil =>
    rw [propertiesInRecord] at h
    simp at h
  | cons property rest ih =>
    obtain ⟨name, object⟩ := property
    cases object with
    | none =>
      rw [propertiesInRecord] at h
      obtain ⟨row, hrow, hmem⟩ := ih h
      refine ⟨row, hrow, ?_⟩
      rw [propertiesInRow]
      exact hmem
    | some object =>
      rcases (mem_propertiesInRecord_cons ctx).1 h with ⟨hname, ⟨row, hrow, hobject⟩ | hlink⟩ | hrest
      · exact ⟨row, hrow, (mem_propertiesInRow_cons ctx).2 (.inl ⟨hname, .inl hobject⟩)⟩
      · obtain ⟨row, hrow, hmem⟩ := exists_row_of_mem_linkTriples hlink
        exact ⟨row, hrow, (mem_propertiesInRow_cons ctx).2 (.inl ⟨hname, .inr hmem⟩)⟩
      · obtain ⟨row, hrow, hmem⟩ := ih hrest
        exact ⟨row, hrow, (mem_propertiesInRow_cons ctx).2 (.inr hmem)⟩

theorem Node.termsInRecord_of_row (place : Address) (hfixed : produce.FixesConstants) {node : Node}
    (hindex : node.isIndex = false) {r : Record} {row : Nat} (hrow : row ∈ r.rows) :
    (produce place node (some row)).run ⊆ (node.termsInRecord produce place r).run := by
  unfold Node.termsInRecord
  split
  · rename_i hconstant
    rw [hfixed place node (some row) hconstant]
    exact List.Subset.refl _
  · intro s hs
    simp only [hindex, Bool.false_eq_true, if_false, Id.run_bind, List.idRun_mapM, Id.run_pure]
    exact List.mem_flatten.2 ⟨_, List.mem_map.2 ⟨row, hrow, rfl⟩, hs⟩

/-- Without an index at its root, a tree says over a record what it says in each of its rows. -/
theorem mem_inRecord_of_row (hfixed : produce.FixesConstants) {node : Node}
    (hindex : node.isIndex = false) {r : Record} {row : Nat} (hrow : row ∈ r.rows)
    (h : x ∈ (node.inRow ctx produce place row).run.triples) :
    x ∈ (node.inRecord ctx produce place r).run.triples := by
  have hsubjects := Node.termsInRecord_of_row place hfixed hindex hrow
  rw [Node.inRow_eq] at h
  rw [Node.inRecord]
  simp only [Id.run_bind, mem_describe] at h ⊢
  obtain ⟨hne, hx⟩ := h
  refine ⟨fun hnil => hne (List.eq_nil_of_subset_nil (hnil ▸ hsubjects)), ?_⟩
  rcases hx with htype | hproperty
  · exact .inl (joinEach_subset hsubjects (List.Subset.refl _) _ htype)
  · exact .inr (mem_propertiesInRecord_of_row ctx hrow hsubjects hproperty)

/-- With a constant at its root, a tree says over a record only what it says in one of its rows. -/
theorem exists_row_of_mem_inRecord (hfixed : produce.FixesConstants) {node : Node}
    (hconstant : node.isConstant = true) {r : Record} (hr : r.rows ≠ [])
    (h : x ∈ (node.inRecord ctx produce place r).run.triples) :
    ∃ row ∈ r.rows, x ∈ (node.inRow ctx produce place row).run.triples := by
  have hsubjects : ∀ row, produce place node (some row) = node.termsInRecord produce place r := by
    intro row
    rw [Node.termsInRecord, if_pos hconstant]
    exact hfixed place node (some row) hconstant
  rw [Node.inRecord] at h
  simp only [Node.inRow_eq, hsubjects, Id.run_bind, mem_describe] at h ⊢
  obtain ⟨hne, htype | hproperty⟩ := h
  · obtain ⟨row, hrow⟩ := List.exists_mem_of_ne_nil _ hr
    exact ⟨row, hrow, hne, .inl htype⟩
  · obtain ⟨row, hrow, hmem⟩ := exists_row_of_mem_propertiesInRecord ctx hproperty
    exact ⟨row, hrow, hne, .inr hmem⟩

theorem mem_rootsInScope {scope : Scope} {number : Nat} {roots : List Node} :
    x ∈ (rootsInScope ctx produce scope number roots).run.triples ↔
      ∃ root ∈ roots.zipIdx number, x ∈ (root.1.inScope ctx produce [root.2] scope).run.triples := by
  induction roots generalizing number with
  | nil => simp [rootsInScope, Statements.nothing]
  | cons root rest ih => simp [rootsInScope, List.zipIdx_cons, ih]

end

/-! ## Sessions -/

namespace Transform

/-- The triples that a graph collects in one application. -/
def collect (t : Transform) (evaluate : Evaluator) (scope : Scope) : StateM BlankNodes (List Triple) :=
  fun blanks =>
    let pass := (t.apply evaluate scope ⟨Graph.empty, blanks⟩).2
    (pass.sink.toList, pass.blanks)

/-- Apply a transform to scopes one after the other, and collect the triples of each application. The
blank nodes that one application names keep their names in the next. -/
def session (t : Transform) (evaluate : Evaluator) (scopes : List Scope) :
    StateM BlankNodes (List (Scope × List Triple)) :=
  scopes.mapM fun scope => do return (scope, ← t.collect evaluate scope)

/-- The triples of an application in hindsight. -/
def settledTriples (t : Transform) (evaluate : Evaluator) (last : BlankNodes) (scope : Scope) :
    List Triple :=
  (rootsInScope ⟨t.naming, evaluate⟩ (settledTerms ⟨t.naming, evaluate⟩ last) scope 0 t.roots).run.triples

theorem collect_eq (t : Transform) (evaluate : Evaluator) (scope : Scope) :
    t.collect evaluate scope = (do return (← t.statements evaluate scope).triples) := by
  funext blanks
  have h := (t.apply_offers evaluate scope blanks).graph Graph.empty
  rw [collect, h]
  simp [Graph.toList, Graph.empty]
  rfl

/-- In hindsight, every application of a session collects what it would collect on its own. -/
theorem session_eq (t : Transform) (evaluate : Evaluator)
    (hnames : ∀ root ∈ t.roots, root.Every Node.HasNames) (scopes : List Scope) (blanks : BlankNodes) :
    (t.session evaluate scopes blanks).1 = scopes.map fun scope =>
      (scope, t.settledTriples evaluate (t.session evaluate scopes blanks).2 scope) := by
  have hsettles : ∀ last, Settles last (t.session evaluate scopes)
      (scopes.mapM fun scope => (pure (scope, t.settledTriples evaluate last scope) : Id _)) := by
    intro last
    refine Settles.mapM fun scope _ => ?_
    rw [collect_eq]
    have hroots := rootsInScope_settles ⟨t.naming, evaluate⟩ last scope 0 t.roots hnames
    exact (hroots.bind fun said => Settles.pure said.triples).bind fun triples => Settles.pure (scope, triples)
  have h := (hsettles _).eq_result blanks (BlankNodes.Keeps.refl _)
  rw [h]
  exact List.idRun_mapM

theorem mem_session_iff (t : Transform) (evaluate : Evaluator)
    (hnames : ∀ root ∈ t.roots, root.Every Node.HasNames) {scopes : List Scope} {blanks : BlankNodes}
    {scope : Scope} {triples : List Triple} :
    (scope, triples) ∈ (t.session evaluate scopes blanks).1 ↔ scope ∈ scopes ∧
      triples = t.settledTriples evaluate (t.session evaluate scopes blanks).2 scope := by
  rw [session_eq t evaluate hnames, List.mem_map]
  constructor
  · rintro ⟨other, hscope, heq⟩
    cases heq
    exact ⟨hscope, rfl⟩
  · rintro ⟨hscope, rfl⟩
    exact ⟨scope, hscope, rfl⟩

theorem settledTriples_row_subset (t : Transform) (evaluate : Evaluator) (last : BlankNodes)
    (hindex : ∀ root ∈ t.roots, root.isIndex = false) {r : Record} {row : Nat} (hrow : row ∈ r.rows) :
    t.settledTriples evaluate last (.row row) ⊆ t.settledTriples evaluate last (.record r) := by
  intro x hx
  obtain ⟨root, hroot, hx⟩ := (mem_rootsInScope _).1 hx
  have hmem : root.1 ∈ t.roots := List.fst_mem_of_mem_zipIdx hroot
  refine (mem_rootsInScope _).2 ⟨root, hroot, ?_⟩
  exact mem_inRecord_of_row _ (fixesConstants_settledTerms _ last) (hindex _ hmem) hrow hx

theorem exists_row_of_mem_settledTriples (t : Transform) (evaluate : Evaluator) (last : BlankNodes)
    (hconstant : ∀ root ∈ t.roots, root.isConstant = true) {r : Record} (hr : r.rows ≠ []) {x : Triple}
    (hx : x ∈ t.settledTriples evaluate last (.record r)) :
    ∃ row ∈ r.rows, x ∈ t.settledTriples evaluate last (.row row) := by
  obtain ⟨root, hroot, hx⟩ := (mem_rootsInScope _).1 hx
  have hmem : root.1 ∈ t.roots := List.fst_mem_of_mem_zipIdx hroot
  obtain ⟨row, hrow, hx⟩ :=
    exists_row_of_mem_inRecord _ (fixesConstants_settledTerms _ last) (hconstant _ hmem) hr hx
  exact ⟨row, hrow, (mem_rootsInScope _).2 ⟨root, hroot, hx⟩⟩

end Transform

/-- **Rows and records agree.** A transform applied to the record of one row does what it does on the
row. Applied in one session, with no index at a root and a name for every cell of blank nodes, it
emits over a record every triple that it emits on one of the rows; and with constants at all roots, no
other triples. -/
theorem rows_records_agree (t : Transform) (evaluate : Evaluator) :
    (∀ (row : Nat) (blanks : BlankNodes),
      (∀ g : Graph, t.apply evaluate (.record ⟨row, row + 1⟩) ⟨g, blanks⟩ =
        t.apply evaluate (.row row) ⟨g, blanks⟩) ∧
      ∀ (σ : Type) [TripleSink σ] (sink : σ),
        let record := t.apply evaluate (.record ⟨row, row + 1⟩) ⟨sink, blanks⟩
        let row := t.apply evaluate (.row row) ⟨sink, blanks⟩
        record.1 = row.1 ∧ record.2.sink = row.2.sink) ∧
    ((∀ root ∈ t.roots, root.isIndex = false) → (∀ root ∈ t.roots, root.Every Node.HasNames) →
      ∀ (scopes : List Scope) (blanks : BlankNodes) (r : Record) (row : Nat) (ofRow ofRecord : List Triple),
        r.first ≤ row → row < r.stop →
        (.row row, ofRow) ∈ (t.session evaluate scopes blanks).1 →
        (.record r, ofRecord) ∈ (t.session evaluate scopes blanks).1 →
        ofRow ⊆ ofRecord) ∧
    ((∀ root ∈ t.roots, root.isConstant = true) → (∀ root ∈ t.roots, root.Every Node.HasNames) →
      ∀ (scopes : List Scope) (blanks : BlankNodes) (r : Record) (ofRecord : List Triple),
        r.first < r.stop → (∀ row, r.first ≤ row → row < r.stop → .row row ∈ scopes) →
        (.record r, ofRecord) ∈ (t.session evaluate scopes blanks).1 →
        ∀ x, x ∈ ofRecord ↔ ∃ row ofRow, r.first ≤ row ∧ row < r.stop ∧
          (.row row, ofRow) ∈ (t.session evaluate scopes blanks).1 ∧ x ∈ ofRow) := by
  refine ⟨fun row blanks => ⟨fun g => ?_, fun σ _ sink => ?_⟩, ?_, ?_⟩
  · have hrecord := (t.apply_offers evaluate (.record ⟨row, row + 1⟩) blanks).graph g
    have hrow := (t.apply_offers evaluate (.row row) blanks).graph g
    rw [hrecord, hrow, t.statements_single]
  · have hrecord := (t.apply_offers (σ := σ) evaluate (.record ⟨row, row + 1⟩) blanks).result sink
    have hrow := (t.apply_offers (σ := σ) evaluate (.row row) blanks).result sink
    rw [t.statements_single] at hrecord
    exact ⟨hrecord.1.trans hrow.1.symm, hrecord.2.trans hrow.2.symm⟩
  · intro hindex hnames scopes blanks r row ofRow ofRecord hfirst hstop hrow hrecord
    rw [t.mem_session_iff evaluate hnames] at hrow hrecord
    rw [hrow.2, hrecord.2]
    exact t.settledTriples_row_subset evaluate _ hindex (Record.mem_rows.2 ⟨hfirst, hstop⟩)
  · intro hconstant hnames scopes blanks r ofRecord hr hscopes hrecord x
    have hindex : ∀ root ∈ t.roots, root.isIndex = false :=
      fun root hroot => Node.isIndex_of_isConstant (hconstant root hroot)
    have hrows : r.rows ≠ [] := List.ne_nil_of_mem (Record.mem_rows.2 ⟨Nat.le_refl r.first, hr⟩)
    simp only [t.mem_session_iff evaluate hnames] at hrecord ⊢
    rw [hrecord.2]
    constructor
    · intro hx
      obtain ⟨row, hrow, hx⟩ := t.exists_row_of_mem_settledTriples evaluate _ hconstant hrows hx
      obtain ⟨hfirst, hstop⟩ := Record.mem_rows.1 hrow
      exact ⟨row, _, hfirst, hstop, ⟨hscopes row hfirst hstop, rfl⟩, hx⟩
    · rintro ⟨row, ofRow, hfirst, hstop, ⟨-, rfl⟩, hx⟩
      exact t.settledTriples_row_subset evaluate _ hindex (Record.mem_rows.2 ⟨hfirst, hstop⟩) hx

/-- A constant linked to one blank node a row. -/
theorem rows_records_agree_two_rows :
    let t : Transform := ⟨⟨Transform.defaultBase, .empty⟩,
      [.resource (.constantIri "s" none .cellValue) []
        [(⟨none, "p"⟩, some (.cellBlank (.ofColumn "name")))]], Transform.currentVersion⟩
    let link (label : String) : Triple :=
      ⟨.iri "http://localhost:3333/s", "http://localhost:3333/p", .blank ⟨label⟩⟩
    let session :=
      (t.session (fun _ _ _ => .ok (.string "value")) [.record ⟨0, 2⟩, .row 1, .row 0] .fresh).1
    session = [(.record ⟨0, 2⟩, [link "name_0", link "name_1"]), (.row 1, [link "name_1"]),
      (.row 0, [link "name_0"])] ∧
    [link "name_1"] ⊆ [link "name_0", link "name_1"] ∧
    ∃ row ofRow, 0 ≤ row ∧ row < 2 ∧ (.row row, ofRow) ∈ session ∧ link "name_0" ∈ ofRow := by
  intro t link session
  have hsession : session = [(.record ⟨0, 2⟩, [link "name_0", link "name_1"]), (.row 1, [link "name_1"]),
      (.row 0, [link "name_0"])] := by
    decide +kernel
  have hrecord : (Scope.record ⟨0, 2⟩, [link "name_0", link "name_1"]) ∈ session := by simp [hsession]
  have hrow : (Scope.row 1, [link "name_1"]) ∈ session := by simp [hsession]
  have hrows : ∀ row, 0 ≤ row → row < 2 → Scope.row row ∈ [.record ⟨0, 2⟩, .row 1, .row 0] := by
    intro row _ hlt
    have hcases : row = 0 ∨ row = 1 := by omega
    rcases hcases with rfl | rfl <;> simp
  have hnames : ∀ root ∈ t.roots, root.Every Node.HasNames := by
    intro root hroot
    obtain rfl := List.mem_singleton.1 hroot
    exact ⟨trivial, ⟨.inr ⟨"name", rfl, by decide⟩, trivial⟩, trivial⟩
  obtain ⟨-, hsubset, hequal⟩ := rows_records_agree t fun _ _ _ => .ok (.string "value")
  refine ⟨hsession, ?_, ?_⟩
  · exact hsubset (by decide) hnames _ _ ⟨0, 2⟩ 1 _ _ (by decide) (by decide) hrow hrecord
  · exact (hequal (by decide) hnames _ _ ⟨0, 2⟩ _ (by decide) hrows hrecord _).1 (by simp)

end TableGraph
