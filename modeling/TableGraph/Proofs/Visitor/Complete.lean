import TableGraph.Proofs.Visitor.Delivery
import TableGraph.Proofs.Visitor.Sampling

/-!
# Complete exports

To a receiver that refuses nothing, an export passes on every triple that the transform emits, whatever
its limit: in batches of its own, but the same triples altogether as an application to each row or
record, as another limit, and as a preview of everything (`export_delivers`).
-/

namespace TableGraph

open TripleSink (offer offerAll)
open Visitor (visitAll)

/-! ## Previews -/

theorem Preview.toList_visitAll_unlimited (t : Transform) (evaluate : Evaluator) (config : Config)
    (h : config.sampleLimit = 0) (scopes : List Scope) (blanks : BlankNodes) :
    (visitAll scopes (Preview.new t evaluate config blanks)).2.graph.toList =
      (t.session evaluate scopes blanks).1.flatMap (·.2) := by
  have hnone : (Visitor.start (Preview.new t evaluate config blanks)).graph.toList = [] :=
    toList_announce t Graph.empty
  have hsample : (Visitor.start (Preview.new t evaluate config blanks)).sample scopes = scopes := if_pos h
  have hsession := (t.session_eq_parts evaluate scopes blanks).1
  rw [visitAll, visitEach_eq, hsample, List.flatMap_def, hsession, ← List.flatten_flatten]
  exact (toList_graph_collected _ scopes).trans (by rw [hnone, List.nil_append]; rfl)

/-! ## Exports -/

section
variable {σ : Type} [TripleSink σ]

theorem Export.visitAll_ok (hsink : ∀ triple (s : σ), (offer triple s).1 = .ok ()) (scopes : List Scope)
    (x : Export (Watched σ)) (h : x.buffer.toList = []) :
    let parts := (x.transform.collectParts x.evaluate scopes x.pass.blanks).1
    let triples := (parts.flatMap (batches x.exportLimit)).flatten
    (visitAll scopes x).1 = .ok () ∧
      (visitAll scopes x).2.written = x.written + triples.length ∧
      (visitAll scopes x).2.receiver.offers =
        x.receiver.offers ++ triples.map fun triple => (triple, .ok ()) := by
  intro parts triples
  have hpasses := visitAll_passes scopes x h
  have haccepted : (offerAll triples (Visitor.start x).receiver.sink).1 = .ok () :=
    TripleSink.offerAll_ok hsink _ _
  obtain ⟨hresult, -, hoffers⟩ := hpasses.offers
  obtain ⟨hdelivered, blanks', hmoved⟩ := hpasses.result
  rw [haccepted] at hresult
  rw [Watched.answers_of_ok haccepted] at hoffers
  refine ⟨hresult, ?_, ?_⟩
  · rw [hmoved]
    exact written_deliver (by
      rw [(deliver_eq_offerAll _ _ _).1, Watched.offerAll_eq]
      exact haccepted)
  · rw [hoffers]
    exact congrArg (· ++ _) (offers_announce x.transform x.receiver)

/-- **A complete export passes on what the transform emits.** To a receiver that refuses nothing, the
export of rows or records returns, and the receiver takes every triple that it is offered; all of them
are counted. They come in batches, row by row or record by record: the roots of each are cut into runs,
a run ends when the limit is exceeded, and its batch is the strictly ascending list of its triples.
Altogether they are the triples that the transform emits in a session of applications; so they do not
depend on the limit, and are those that a preview of everything collects. -/
theorem export_delivers (hsink : ∀ triple (s : σ), (offer triple s).1 = .ok ()) (t : Transform)
    (evaluate : Evaluator) (config : Config) (scopes : List Scope) (blanks : BlankNodes) (receiver : σ) :
    let observed : Watched σ := ⟨receiver, []⟩
    let run := visitAll scopes (Export.new t evaluate config blanks observed)
    let delivered := run.2.receiver.offers.map (·.1)
    (run.1 = .ok () ∧ (∀ o ∈ run.2.receiver.offers, o.2 = .ok ()) ∧ run.2.written = delivered.length) ∧
      (∃ batches : List (List (List Triple)),
        List.Forall₂ (Export.IsBatching config.exportLimit) (t.collectParts evaluate scopes blanks).1 batches ∧
          delivered = batches.flatten.flatten ∧ ∀ batch ∈ batches.flatten, batch.Nodup) ∧
      (∀ x, x ∈ delivered ↔ ∃ emitted ∈ (t.session evaluate scopes blanks).1, x ∈ emitted.2) ∧
      (∀ other : Config, ∀ x, x ∈ delivered ↔
        x ∈ (visitAll scopes (Export.new t evaluate other blanks observed)).2.receiver.offers.map (·.1)) ∧
      ∀ other : Config, other.sampleLimit = 0 → ∀ x, x ∈ delivered ↔
        x ∈ (visitAll scopes (Preview.new t evaluate other blanks)).2.graph.toList := by
  intro observed run delivered
  have hdelivered (other : Config) :
      (visitAll scopes (Export.new t evaluate other blanks observed)).2.receiver.offers.map (·.1) =
        ((t.collectParts evaluate scopes blanks).1.flatMap (Export.batches other.exportLimit)).flatten := by
    have hoffers := (Export.visitAll_ok hsink scopes (Export.new t evaluate other blanks observed) rfl).2.2
    rw [hoffers, List.map_append, List.map_map]
    exact List.map_id _
  have hemitted (other : Config) (x : Triple) :
      x ∈ (visitAll scopes (Export.new t evaluate other blanks observed)).2.receiver.offers.map (·.1) ↔
        ∃ emitted ∈ (t.session evaluate scopes blanks).1, x ∈ emitted.2 := by
    rw [hdelivered, Export.mem_flatMap_batches, t.mem_session_iff_parts]
  obtain ⟨hok, hwritten, hoffers⟩ :=
    Export.visitAll_ok hsink scopes (Export.new t evaluate config blanks observed) rfl
  refine ⟨⟨hok, ?_, ?_⟩, ⟨_, ?_, hdelivered config, ?_⟩, hemitted config, ?_, ?_⟩
  · intro o ho
    rw [hoffers] at ho
    obtain ⟨triple, -, rfl⟩ := List.mem_map.1 ho
    rfl
  · have hlength := congrArg List.length (hdelivered config)
    exact (hwritten.trans (Nat.zero_add _)).trans hlength.symm
  · rw [List.forall₂_map_right_iff, List.forall₂_same]
    exact fun parts _ => Export.isBatching_batches config.exportLimit parts
  · intro batch hbatch
    obtain ⟨_, hunit, hbatch⟩ := List.mem_flatten.1 hbatch
    obtain ⟨parts, -, rfl⟩ := List.mem_map.1 hunit
    obtain ⟨run, -, rfl⟩ := List.mem_map.1 hbatch
    exact (Export.isBatch_batch run).nodup
  · intro other x
    exact (hemitted config x).trans (hemitted other x).symm
  · intro other hlimit x
    rw [Preview.toList_visitAll_unlimited t evaluate other hlimit, List.mem_flatMap]
    exact hemitted config x

end

/-- Two roots over two rows, with a limit of one triple. -/
theorem export_delivers_two_rows :
    let link (o : String) : Triple := ⟨.iri "http://localhost:3333/s", "http://localhost:3333/p", .plain o⟩
    let node (objects : LiteralSource) : Node :=
      .resource (.constantIri "s" none .cellValue) [] [(⟨none, "p"⟩, some (.literal ⟨objects, none, none⟩))]
    let t : Transform := ⟨⟨Transform.defaultBase, .empty⟩,
      [node (.cell (.ofColumn "name")), node (.constant "a" .cellValue)], Transform.currentVersion⟩
    let evaluate : Evaluator := fun _ _ row =>
      .ok (if row = 0 then .array [.string "b", .string "b"] else .string "c")
    let run := visitAll [.row 0, .row 1]
      (Export.new t evaluate { exportLimit := 1 } .fresh (⟨.empty, []⟩ : Watched Graph))
    let delivered := run.2.receiver.offers.map (·.1)
    (∀ triple (g : Graph), (offer triple g).1 = .ok ()) ∧ run.1 = .ok () ∧
      run.2.written = delivered.length ∧
      ∀ x, x ∈ delivered ↔ x = link "a" ∨ x = link "b" ∨ x = link "c" := by
  intro link node t evaluate run delivered
  have haccepts : ∀ triple (g : Graph), (offer triple g).1 = .ok () := fun _ _ => rfl
  have hsession : (t.session evaluate [.row 0, .row 1] .fresh).1 =
      [(.row 0, [link "b", link "b", link "a"]), (.row 1, [link "c", link "a"])] := by
    decide +kernel
  obtain ⟨⟨hok, -, hwritten⟩, -, hemitted, -⟩ :=
    export_delivers haccepts t evaluate { exportLimit := 1 } [.row 0, .row 1] .fresh Graph.empty
  rw [hsession] at hemitted
  simp only [List.mem_cons, List.not_mem_nil, or_false, exists_eq_or_imp, exists_eq_left] at hemitted
  have hlinks (x : Triple) : ((x = link "b" ∨ x = link "b" ∨ x = link "a") ∨ x = link "c" ∨ x = link "a") ↔
      x = link "a" ∨ x = link "b" ∨ x = link "c" := by
    grind
  -- the run is the same as it stands, and must not be unfolded
  refine ⟨haccepts, ?_, ?_, fun x => Iff.trans ?_ (hlinks x)⟩
  · with_reducible exact hok
  · with_reducible exact hwritten
  · with_reducible exact hemitted x

end TableGraph
