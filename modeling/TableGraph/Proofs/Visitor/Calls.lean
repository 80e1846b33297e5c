import TableGraph.Proofs.Visitor.Delivery

/-!
# Calls to an export

An export may be called in any order, and again after a call has failed. Whatever was called before,
nothing is held back between two calls (`toList_buffer_afterCalls`). A call counts the triples of the
batches that the receiver took as a whole: where it refuses a triple inside a batch, those it took of
that batch are not counted (`written_counts_whole_batches`).
-/

namespace TableGraph

open TripleSink (offer offerAll)

namespace Export

inductive Call
  | start
  | visit (scope : Scope)
  | flush
  | finish
  deriving DecidableEq, Repr

section
variable {σ : Type}

/-- The batches that a call passes on: those of the row or record that it visits. -/
def due (x : Export σ) : Call → List (List Triple)
  | .visit scope =>
    batches x.exportLimit (x.transform.collectRoots x.evaluate scope 0 x.transform.roots x.pass.blanks).1
  | _ => []

theorem ascending_of_mem_due {x : Export σ} {call : Call} {batch : List Triple} (h : batch ∈ x.due call) :
    batch.Pairwise fun a b => compare a b = .lt := by
  cases call with
  | visit scope =>
    obtain ⟨run, -, rfl⟩ := List.mem_map.1 h
    exact (isBatch_batch run).ascending
  | start | flush | finish => cases h

theorem mem_due {x : Export σ} {call : Call} {triple : Triple} (h : triple ∈ (x.due call).flatten) :
    ∃ scope, call = .visit scope ∧ triple ∈ (x.transform.collect x.evaluate scope x.pass.blanks).1 := by
  cases call with
  | visit scope =>
    refine ⟨scope, rfl, ?_⟩
    rw [Transform.collect_eq_flatten]
    exact mem_flatten_batches.1 h
  | start | flush | finish => cases h

variable [TripleSink σ]

/-- Make a call: whether it returns, and the export after it. -/
def perform (x : Export σ) : Call → Except TransformError Unit × Export σ
  | .start => (.ok (), Visitor.start x)
  | .visit scope => ((Visitor.visit scope x).1.map fun _ => (), (Visitor.visit scope x).2)
  | .flush => x.flush
  | .finish => Visitor.finish x

def afterCalls : List Call → Export σ → Export σ
  | [], x => x
  | call :: rest, x => afterCalls rest (x.perform call).2

/-- The export when a call begins to pass batches on: a start announces the prefixes before. -/
def opened (x : Export σ) : Call → Export σ
  | .start => Visitor.start x
  | _ => x

/-! ## One call -/

theorem perform_passes (x : Export σ) (h : x.buffer.toList = []) (call : Call) :
    ∃ after, (x.opened call).Passes (x.perform call) () (x.due call) after := by
  cases call with
  | start =>
    refine ⟨x.pass.blanks, ?_⟩
    have hself : (Visitor.start x).moved x.pass.blanks _ _ = Visitor.start x := moved_self h
    exact congrArg (Prod.mk _) hself.symm
  | visit scope => exact ⟨_, (visit_passes scope x h).map ()⟩
  | flush | finish =>
    refine ⟨x.pass.blanks, ?_⟩
    have hflush : x.flush = (.ok (), x.moved x.pass.blanks x.receiver x.written) := by
      rw [flush_of_empty h, moved_self h]
    exact hflush

theorem perform_eq_moved (x : Export σ) (h : x.buffer.toList = []) (call : Call) :
    ∃ blanks receiver written, (x.perform call).2 = x.moved blanks receiver written := by
  obtain ⟨after, hpasses⟩ := perform_passes x h call
  obtain ⟨-, blanks, hmoved⟩ := hpasses.result
  have hopened (receiver : σ) (written : Nat) :
      (x.opened call).moved blanks receiver written = x.moved blanks receiver written := by
    cases call <;> rfl
  rw [hopened] at hmoved
  exact ⟨blanks, _, _, hmoved⟩

theorem afterCalls_eq_moved (calls : List Call) (x : Export σ) (h : x.buffer.toList = []) :
    ∃ blanks receiver written, x.afterCalls calls = x.moved blanks receiver written := by
  induction calls generalizing x with
  | nil => exact ⟨_, _, _, (moved_self h).symm⟩
  | cons call rest ih =>
    obtain ⟨blanks, receiver, written, hcall⟩ := perform_eq_moved x h call
    obtain ⟨blanks', receiver', written', hrest⟩ := ih (x.moved blanks receiver written) rfl
    refine ⟨blanks', receiver', written', ?_⟩
    rw [afterCalls, hcall, hrest]
    rfl

theorem toList_buffer_perform {x : Export σ} (h : x.buffer.toList = []) (call : Call) :
    (x.perform call).2.buffer.toList = [] := by
  obtain ⟨blanks, receiver, written, hcall⟩ := perform_eq_moved x h call
  rw [hcall, toList_buffer_moved]

theorem toList_buffer_afterCalls {x : Export σ} (h : x.buffer.toList = []) (calls : List Call) :
    (x.afterCalls calls).buffer.toList = [] := by
  obtain ⟨blanks, receiver, written, hcalls⟩ := afterCalls_eq_moved calls x h
  rw [hcalls, toList_buffer_moved]

/-! ## What is counted -/

/-- Delivering batches notes and counts all of them, or it stops inside one of them: what was accepted of
that batch is noted, but not counted. -/
theorem deliver_counts (batches : List (List Triple)) (w : Watched σ) (written : Nat) :
    let run := deliver batches w written
    (run.1 = .ok () → run.2.1.offers = w.offers ++ batches.flatten.map (fun t => (t, .ok ())) ∧
      run.2.2 = written + batches.flatten.length) ∧
    ∀ e, run.1 = .error e → ∃ whole part refused rest, part ++ refused :: rest ∈ batches ∧
      run.2.1.offers = w.offers ++ (whole ++ part).map (fun t => (t, .ok ())) ++ [(refused, .error e)] ∧
      run.2.2 = written + whole.length := by
  induction batches generalizing w written with
  | nil => exact ⟨fun _ => ⟨(List.append_nil _).symm, rfl⟩, fun _ h => by cases h⟩
  | cons batch more ih =>
    rw [deliver, Watched.offerAll_eq]
    rcases hanswer : (offerAll batch w.sink).1 with e | _
    · obtain ⟨part, refused, rest, rfl, hanswers⟩ := Watched.answers_of_error hanswer
      refine ⟨(fun h => by cases h), ?_⟩
      rintro _ ⟨⟩
      refine ⟨[], part, refused, rest, List.mem_cons_self, ?_, rfl⟩
      change w.offers ++ _ = _
      rw [hanswers, List.nil_append, List.append_assoc]
    · have hanswers := Watched.answers_of_ok hanswer
      let between : Watched σ := ⟨(offerAll batch w.sink).2, w.offers ++ Watched.answers batch w.sink⟩
      obtain ⟨hall, hstopped⟩ := ih between (written + batch.length)
      refine ⟨fun hok => ?_, fun e he => ?_⟩
      · obtain ⟨hoffers, hwritten⟩ := hall hok
        refine ⟨hoffers.trans ?_, hwritten.trans ?_⟩
        · simp [between, hanswers]
        · simp [Nat.add_assoc]
      · obtain ⟨whole, part, refused, rest, hmem, hoffers, hwritten⟩ := hstopped e he
        refine ⟨batch ++ whole, part, refused, rest, List.mem_cons_of_mem _ hmem, hoffers.trans ?_,
          hwritten.trans ?_⟩
        · simp [between, hanswers]
        · simp [Nat.add_assoc]

theorem written_opened (x : Export σ) (call : Call) : (x.opened call).written = x.written := by
  cases call <;> rfl

theorem offers_opened (x : Export (Watched σ)) (call : Call) :
    (x.opened call).receiver.offers = x.receiver.offers := by
  cases call with
  | start => exact offers_announce x.transform x.receiver
  | visit scope | flush | finish => rfl

theorem perform_counts (x : Export (Watched σ)) (h : x.buffer.toList = []) (call : Call) :
    let run := x.perform call
    (run.1 = .ok () → ∃ passed : List Triple,
      run.2.receiver.offers = x.receiver.offers ++ passed.map (fun t => (t, .ok ())) ∧
      run.2.written = x.written + passed.length) ∧
    ∀ e, run.1 = .error e → ∃ whole part refused rest,
      (part ++ refused :: rest).Pairwise (fun a b => compare a b = .lt) ∧
      run.2.receiver.offers =
        x.receiver.offers ++ (whole ++ part).map (fun t => (t, .ok ())) ++ [(refused, .error e)] ∧
      run.2.written = x.written + whole.length := by
  intro run
  obtain ⟨after, hpasses⟩ := perform_passes x h call
  obtain ⟨hresult, left, hmoved⟩ := hpasses.result
  obtain ⟨hall, hstopped⟩ := deliver_counts (x.due call) (x.opened call).receiver (x.opened call).written
  rw [offers_opened, written_opened] at hall hstopped
  rw [written_opened] at hresult hmoved
  generalize deliver (x.due call) (x.opened call).receiver x.written = delivered
    at hresult hmoved hall hstopped
  obtain ⟨e | _, noted, counted⟩ := delivered
  · have hrun : run.1 = .error e := hresult
    obtain ⟨whole, part, refused, rest, hmem, hnoted, hcounted⟩ := hstopped e rfl
    refine ⟨fun hok => ?_, fun e' he' => ?_⟩
    · rw [hok] at hrun
      cases hrun
    · rw [he'] at hrun
      obtain rfl := Except.error.inj hrun
      refine ⟨whole, part, refused, rest, ascending_of_mem_due hmem, ?_, ?_⟩
      · rw [hmoved]
        exact hnoted
      · rw [hmoved]
        exact hcounted
  · have hrun : run.1 = .ok () := hresult
    obtain ⟨hnoted, hcounted⟩ := hall rfl
    refine ⟨fun _ => ⟨(x.due call).flatten, ?_, ?_⟩, fun e he => ?_⟩
    · rw [hmoved]
      exact hnoted
    · rw [hmoved]
      exact hcounted
    · rw [he] at hrun
      cases hrun

end

end Export

/-! ## Accepted triples -/

def Watched.accepted (w : Watched σ) : Nat :=
  (w.offers.filter fun o => o.2 = .ok ()).length

theorem Watched.accepted_append {w v : Watched σ} {triples : List Triple} {refused : List (Triple × Answer)}
    (hrefused : ∀ o ∈ refused, o.2 ≠ .ok ())
    (h : v.offers = w.offers ++ triples.map (fun t => (t, .ok ())) ++ refused) :
    v.accepted = w.accepted + triples.length := by
  have hnone : refused.filter (fun o => o.2 = .ok ()) = [] := by
    simpa using hrefused
  rw [accepted, accepted, h, List.filter_append, List.filter_append, hnone, List.append_nil,
    List.length_append, List.filter_map]
  simp [Function.comp_def]

theorem Export.written_le_accepted_perform [TripleSink σ] {x : Export (Watched σ)}
    (h : x.buffer.toList = []) (hle : x.written ≤ x.receiver.accepted) (call : Call) :
    (x.perform call).2.written ≤ (x.perform call).2.receiver.accepted := by
  obtain ⟨hreturned, hfailed⟩ := perform_counts x h call
  rcases hrun : (x.perform call).1 with e | _
  · obtain ⟨whole, part, refused, rest, -, hoffers, hwritten⟩ := hfailed e hrun
    have hrefused : ∀ o ∈ [(refused, (.error e : Answer))], o.2 ≠ .ok () := by
      simp
    rw [hwritten, Watched.accepted_append hrefused hoffers, List.length_append]
    omega
  · obtain ⟨passed, hoffers, hwritten⟩ := hreturned hrun
    have hnone : ∀ o ∈ ([] : List (Triple × Answer)), o.2 ≠ .ok () := by
      simp
    rw [← List.append_nil (_ ++ _)] at hoffers
    rw [hwritten, Watched.accepted_append hnone hoffers]
    omega

theorem Export.written_le_accepted_afterCalls [TripleSink σ] {x : Export (Watched σ)}
    (h : x.buffer.toList = []) (hle : x.written ≤ x.receiver.accepted) (calls : List Call) :
    (x.afterCalls calls).written ≤ (x.afterCalls calls).receiver.accepted := by
  induction calls generalizing x with
  | nil => exact hle
  | cons call rest ih =>
    exact ih (toList_buffer_perform h call) (written_le_accepted_perform h hle call)

/-- **Whole batches are counted.** After any calls, made one after the other whether they return or fail,
no more triples are counted than the receiver accepted. A call that returns counts every triple that it
passed on. A call that fails does so at one triple of a batch, the last that it offers: it counts the
batches before, and not what the receiver accepted of that one. -/
theorem written_counts_whole_batches [TripleSink σ] (t : Transform) (evaluate : Evaluator) (config : Config)
    (blanks : BlankNodes) (receiver : σ) (calls : List Export.Call) :
    let x := (Export.new t evaluate config blanks (⟨receiver, []⟩ : Watched σ)).afterCalls calls
    x.written ≤ x.receiver.accepted ∧
      ∀ call, let run := x.perform call
        (run.1 = .ok () → ∃ passed : List Triple,
          run.2.receiver.offers = x.receiver.offers ++ passed.map (fun t => (t, .ok ())) ∧
          run.2.written = x.written + passed.length) ∧
        ∀ e, run.1 = .error e → ∃ whole part refused rest,
          (part ++ refused :: rest).Pairwise (fun a b => compare a b = .lt) ∧
          run.2.receiver.offers =
            x.receiver.offers ++ (whole ++ part).map (fun t => (t, .ok ())) ++ [(refused, .error e)] ∧
          run.2.written = x.written + whole.length := by
  intro x
  have hempty : x.buffer.toList = [] := Export.toList_buffer_afterCalls rfl calls
  refine ⟨?_, Export.perform_counts x hempty⟩
  exact Export.written_le_accepted_afterCalls rfl (Nat.le_refl 0) calls

/-- A store with room for one triple accepts the first of a batch of two, and none is counted. -/
theorem written_lt_accepted_inside_batch :
    let t : Transform := ⟨⟨Transform.defaultBase, .empty⟩,
      [.resource (.constantIri "s" none .cellValue) []
        [(⟨none, "p"⟩, some (.literal ⟨.cell (.ofColumn "name"), none, none⟩))]], Transform.currentVersion⟩
    let evaluate : Evaluator := fun _ _ _ => .ok (.array [.string "a", .string "b"])
    let x := Export.new t evaluate {} .fresh (⟨.empty (some 1), []⟩ : Watched Store)
    let left := x.afterCalls [.start, .visit (.row 0)]
    left.written = 0 ∧ left.receiver.accepted = 1 := by
  intro t evaluate x left
  let link (o : String) : Triple := ⟨.iri "http://localhost:3333/s", "http://localhost:3333/p", .plain o⟩
  have hparts : (x.transform.collectRoots x.evaluate (.row 0) 0 x.transform.roots x.pass.blanks).1 =
      [[link "a", link "b"]] := by
    decide +kernel
  have hbatches : Export.batches x.exportLimit [[link "a", link "b"]] = [[link "a", link "b"]] := by
    have hcut : Export.cut x.exportLimit [] [[link "a", link "b"]] = [[[link "a", link "b"]]] := by
      decide +kernel
    rw [Export.batches, hcut, List.map_singleton, Export.batch_of_pairwise (by decide +kernel)]
    rfl
  have hempty : (Visitor.start x).buffer.toList = [] := rfl
  -- the visit must not be run to state what it passes on
  with_reducible have hpasses := Export.visit_passes (.row 0) (Visitor.start x) hempty
  change (Visitor.start x).Passes _ false (Export.batches x.exportLimit
    (x.transform.collectRoots x.evaluate (.row 0) 0 x.transform.roots x.pass.blanks).1) _ at hpasses
  rw [hparts, hbatches] at hpasses
  obtain ⟨-, blanks, hmoved⟩ := hpasses.result
  generalize hrun : Export.deliver [[link "a", link "b"]] (Visitor.start x).receiver
    (Visitor.start x).written = delivered at hmoved
  have hdelivered : delivered.2.2 = 0 ∧ delivered.2.1.accepted = 1 := by
    rw [← hrun]
    decide +kernel
  have hleft : left = (Visitor.start x).moved blanks delivered.2.1 delivered.2.2 := hmoved
  rw [hleft]
  exact hdelivered

end TableGraph
