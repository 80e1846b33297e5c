import TableGraph.Proofs.Visitor.Calls
import TableGraph.Proofs.Visitor.Complete

/-!
# Refusals in an export

A receiver may refuse a triple in the middle of a batch. The rest of the batch is lost: it is not
offered, neither in this call nor in a later one, as nothing is held back between calls
(`export_stops_at_refusal`). The triples that are offered up to there are the first ones of those that a
receiver would be offered that accepts everything.
-/

namespace TableGraph

open TripleSink (offer offerAll)
open Visitor (visitEach visitAll)

/-! ## Stopping -/

/-- Triples are offered in order up to the first that is refused, whose error is the answer. -/
structure Watched.StopsAtRefusal (all : List Triple) (offers : List (Triple × Answer)) (answer : Answer) :
    Prop where
  offered : offers.map (·.1) <+: all
  of_accepted : (∀ o ∈ offers, o.2 = .ok ()) → answer = .ok () ∧ offers.map (·.1) = all
  of_refused : (∃ o ∈ offers, o.2 ≠ .ok ()) → ∃ accepted refused e,
    offers = accepted ++ [(refused, .error e)] ∧ (∀ o ∈ accepted, o.2 = .ok ()) ∧ answer = .error e

theorem Watched.stopsAtRefusal_answers [TripleSink σ] (triples : List Triple) (sink : σ) :
    StopsAtRefusal triples (answers triples sink) (offerAll triples sink).1 := by
  have hmap (ts : List Triple) : (ts.map fun t => (t, (.ok () : Answer))).map (·.1) = ts := by
    rw [List.map_map]
    exact List.map_id ts
  have hok (ts : List Triple) : ∀ o ∈ ts.map fun t => (t, (.ok () : Answer)), o.2 = .ok () := by
    intro o ho
    obtain ⟨t, -, rfl⟩ := List.mem_map.1 ho
    rfl
  rcases hanswer : (offerAll triples sink).1 with e | _
  · obtain ⟨accepted, refused, rest, hsplit, hanswers⟩ := answers_of_error hanswer
    rw [hanswers]
    refine ⟨⟨rest, ?_⟩, fun h => ?_, fun _ => ⟨_, refused, e, rfl, hok accepted, rfl⟩⟩
    · rw [List.map_append, hmap, hsplit, List.append_assoc]
      rfl
    · -- the refused offer is among the answers
      cases h (refused, .error e) (List.mem_append_right _ List.mem_cons_self)
  · rw [answers_of_ok hanswer]
    refine ⟨(hmap triples).symm ▸ List.prefix_refl _, fun _ => ⟨rfl, hmap triples⟩, ?_⟩
    rintro ⟨o, ho, hrefused⟩
    exact absurd (hok triples o ho) hrefused

theorem Watched.mem_of_mem_answers [TripleSink σ] {triples : List Triple} {sink : σ} {o : Triple × Answer}
    (h : o ∈ answers triples sink) : o.1 ∈ triples := by
  have hoffered := (stopsAtRefusal_answers triples sink).offered
  exact hoffered.subset (List.mem_map_of_mem h)

namespace Export

variable {σ : Type}

def redirect (x : Export σ) (receiver : τ) : Export τ :=
  { x with receiver := receiver }

/-- An export with the calls that a visit makes to it. -/
structure Recorded (σ : Type) where
  target : Export σ
  calls : List Call

variable [TripleSink σ]

/-! ## Observed exports -/

/-- An export whose receiver is observed does the same, and its receiver notes the answers to all that is
passed on. -/
theorem Passes.observed {x : Export σ} {w : Export (Watched σ)} {run : Except TransformError α × Export σ}
    {noted : Except TransformError α × Export (Watched σ)} {a : α} {batches : List (List Triple)}
    {after after' : BlankNodes} (h : x.Passes run a batches after) (hw : w.Passes noted a batches after')
    (hreceiver : w.receiver = ⟨x.receiver, []⟩) :
    run.1 = noted.1 ∧ run.2.receiver = noted.2.receiver.sink ∧
      noted.2.receiver.offers = Watched.answers batches.flatten x.receiver := by
  obtain ⟨hrun, hleft⟩ := h.answer
  obtain ⟨hnoted, hsink, hoffers⟩ := hw.offers
  rw [hreceiver] at hnoted hsink hoffers
  exact ⟨hrun.trans hnoted.symm, hleft.trans hsink.symm, hoffers⟩

theorem receiver_start_observed (x : Export σ) :
    (Visitor.start (x.redirect (⟨x.receiver, []⟩ : Watched σ))).receiver =
      ⟨(Visitor.start x).receiver, []⟩ := by
  have hsink := sink_announce x.transform (⟨x.receiver, []⟩ : Watched σ)
  have hoffers := offers_announce x.transform (⟨x.receiver, []⟩ : Watched σ)
  exact congrArg₂ Watched.mk hsink hoffers

theorem perform_observed (x : Export σ) (h : x.buffer.toList = []) (call : Call) :
    let noted := (x.redirect (⟨x.receiver, []⟩ : Watched σ)).perform call
    (x.perform call).1 = noted.1 ∧ (x.perform call).2.receiver = noted.2.receiver.sink ∧
      noted.2.receiver.offers = Watched.answers (x.due call).flatten (x.opened call).receiver := by
  obtain ⟨_, hpasses⟩ := perform_passes x h call
  obtain ⟨_, hnoted⟩ := perform_passes (x.redirect (⟨x.receiver, []⟩ : Watched σ)) h call
  refine hpasses.observed hnoted ?_
  cases call with
  | start => exact receiver_start_observed x
  | visit scope | flush | finish => rfl

/-! ## Calls of a visit -/

/-- Recording calls changes no answer. -/
instance : Visitor (Recorded σ) where
  start r := ⟨Visitor.start r.target, r.calls ++ [.start]⟩
  visit scope r :=
    let (answer, x) := Visitor.visit scope r.target
    (answer, ⟨x, r.calls ++ [.visit scope]⟩)
  finish r :=
    let (answer, x) := Visitor.finish r.target
    (answer, ⟨x, r.calls ++ [.finish]⟩)

theorem visitEach_recorded (scopes : List Scope) (r : Recorded σ) :
    ∃ visited : List Scope, visitEach scopes r = ((visitEach scopes r.target).1,
      ⟨(visitEach scopes r.target).2, r.calls ++ visited.map .visit⟩) := by
  induction scopes generalizing r with
  | nil => exact ⟨[], by rw [List.map_nil, List.append_nil]; rfl⟩
  | cons scope rest ih =>
    let noted (x : Export σ) : Recorded σ := ⟨x, r.calls ++ [.visit scope]⟩
    have hvisit : Visitor.visit scope r =
        ((Visitor.visit scope r.target).1, noted (Visitor.visit scope r.target).2) := rfl
    rw [visitEach, visitEach, hvisit]
    rcases Visitor.visit scope r.target with ⟨e | stop, x⟩
    · exact ⟨[scope], rfl⟩
    · cases stop with
      | true => exact ⟨[scope], rfl⟩
      | false =>
        obtain ⟨visited, heach⟩ := ih (noted x)
        refine ⟨scope :: visited, heach.trans ?_⟩
        rw [List.map_cons, ← List.append_cons]

theorem visitAll_recorded (scopes : List Scope) (x : Export σ) (h : x.buffer.toList = []) :
    let recorded := visitAll scopes (⟨x, []⟩ : Recorded σ)
    recorded.1 = (visitAll scopes x).1 ∧ recorded.2.target = (visitAll scopes x).2 ∧
      (.finish ∈ recorded.2.calls ↔ (visitAll scopes x).1 = .ok ()) := by
  let started : Recorded σ := ⟨Visitor.start x, [.start]⟩
  obtain ⟨visited, hrecorded⟩ := visitEach_recorded scopes started
  let calls := started.calls ++ visited.map .visit
  obtain ⟨-, blanks, hmoved⟩ := (visitEach_passes scopes (Visitor.start x) h).result
  have hleft : (visitEach scopes started.target).2.buffer.toList = [] := by
    change (visitEach scopes (Visitor.start x)).2.buffer.toList = []
    rw [hmoved, toList_buffer_moved]
  have hstart : Visitor.start (⟨x, []⟩ : Recorded σ) = started := rfl
  rw [visitAll, visitAll, hstart, hrecorded]
  change _ ∧ _ ∧ (_ ↔ _)
  rcases hrun : visitEach scopes started.target with ⟨e | _, y⟩
  · refine ⟨rfl, rfl, fun hmem => ?_, fun h => by cases h⟩
    simp [started] at hmem
  · rw [hrun] at hleft
    have hfinish : Visitor.finish y = (.ok (), y) := flush_of_empty hleft
    have hconclude : Visitor.finish (⟨y, calls⟩ : Recorded σ) = (.ok (), ⟨y, calls ++ [.finish]⟩) := by
      change ((Visitor.finish y).1, (⟨(Visitor.finish y).2, calls ++ [.finish]⟩ : Recorded σ)) = _
      rw [hfinish]
    dsimp only
    rw [hfinish, hconclude]
    exact ⟨rfl, rfl, fun _ => rfl, fun _ => List.mem_append_right _ List.mem_cons_self⟩

/-! ## Within the limit -/

theorem length_buffer_of_visitRoots {scope : Scope} {number : Nat} {roots : List Node} {x y : Export σ}
    (h : x.buffer.toList.length ≤ x.exportLimit) (hrun : visitRoots scope number roots x = (.ok (), y)) :
    y.exportLimit = x.exportLimit ∧ y.buffer.toList.length ≤ x.exportLimit := by
  induction roots generalizing number x with
  | nil =>
    obtain rfl : x = y := congrArg Prod.snd hrun
    exact ⟨rfl, h⟩
  | cons root rest ih =>
    let held := x.afterRoot scope number root
    rw [visitRoots_cons] at hrun
    split at hrun
    · have hheld : held.buffer.toList = [held.buffer.toList].flatten := List.flatten_singleton.symm
      obtain ⟨-, blanks, hmoved⟩ := (held.flush_passes hheld).result
      rcases hflush : held.flush with ⟨e | _, z⟩
      · rw [hflush] at hrun
        cases hrun
      · rw [hflush] at hrun hmoved
        subst hmoved
        exact ih (x := held.moved blanks _ _) (Nat.zero_le _) hrun
    · rename_i hlimit
      exact ih (x := held) (Nat.le_of_not_lt hlimit) hrun

end Export

/-! ## Refusals -/

/-- **An export stops at a refusal.** After any calls, made one after the other whether they return or
fail: a whole visit offers the first triples of those that a receiver is offered that accepts everything,
up to the first that is refused; the refusal is the error that is returned, and the visit is concluded
only where it returns. Between two calls nothing is held back, so a flush and a conclusion return and do
nothing, and a call offers only what is emitted in the row or record that it visits. Within a visit, no
more is held back than the limit allows when a root is evaluated. -/
theorem export_stops_at_refusal {σ τ : Type} [TripleSink σ] [TripleSink τ]
    (haccepts : ∀ triple (s : τ), (offer triple s).1 = .ok ()) (t : Transform) (evaluate : Evaluator)
    (config : Config) (blanks : BlankNodes) (receiver : σ) (accepting : τ) (calls : List Export.Call) :
    let x := (Export.new t evaluate config blanks receiver).afterCalls calls
    let observed : Export (Watched σ) := x.redirect ⟨x.receiver, []⟩
    (∀ scopes,
      let free := visitAll scopes (x.redirect (⟨accepting, []⟩ : Watched τ))
      let run := visitAll scopes x
      let noted := visitAll scopes observed
      let recorded := visitAll scopes (⟨x, []⟩ : Export.Recorded σ)
      free.1 = .ok () ∧ (run.1 = noted.1 ∧ run.2.receiver = noted.2.receiver.sink) ∧
        Watched.StopsAtRefusal (free.2.receiver.offers.map (·.1)) noted.2.receiver.offers run.1 ∧
        recorded.1 = run.1 ∧ recorded.2.target = run.2 ∧ (.finish ∈ recorded.2.calls ↔ run.1 = .ok ())) ∧
      (x.buffer.toList = [] ∧ x.flush = (.ok (), x) ∧ Visitor.finish x = (.ok (), x)) ∧
      (∀ call, let noted := observed.perform call
        (x.perform call).1 = noted.1 ∧ (x.perform call).2.receiver = noted.2.receiver.sink ∧
        ∀ o ∈ noted.2.receiver.offers, ∃ scope, call = .visit scope ∧
          o.1 ∈ (t.collect evaluate scope x.pass.blanks).1) ∧
      ∀ scope before root after, t.roots = before ++ root :: after →
        match Export.visitRoots scope 0 before x with
        | (.ok (), y) => y.buffer.size ≤ config.exportLimit ∧
          Export.visitRoots scope 0 t.roots x = Export.visitRoots scope before.length (root :: after) y
        | (.error e, y) => Export.visitRoots scope 0 t.roots x = (.error e, y) := by
  intro x observed
  have hempty : x.buffer.toList = [] := Export.toList_buffer_afterCalls rfl calls
  obtain ⟨_, _, _, hx⟩ := Export.afterCalls_eq_moved calls (Export.new t evaluate config blanks receiver) rfl
  have htransform : x.transform = t := congrArg Export.transform hx
  have hevaluate : x.evaluate = evaluate := congrArg Export.evaluate hx
  have hlimit : x.exportLimit = config.exportLimit := congrArg Export.exportLimit hx
  refine ⟨?_, ⟨hempty, Export.flush_of_empty hempty, Export.flush_of_empty hempty⟩, ?_, ?_⟩
  · intro scopes free run noted recorded
    obtain ⟨hfree, -, hall⟩ := Export.visitAll_ok haccepts scopes (x.redirect ⟨accepting, []⟩) hempty
    obtain ⟨hsame, hsink, hoffers⟩ := (Export.visitAll_passes scopes x hempty).observed
      (Export.visitAll_passes scopes observed hempty) (Export.receiver_start_observed x)
    refine ⟨hfree, ⟨hsame, hsink⟩, ?_, Export.visitAll_recorded scopes x hempty⟩
    let triples := ((x.transform.collectParts x.evaluate scopes x.pass.blanks).1.flatMap
      (Export.batches x.exportLimit)).flatten
    have hfirst : free.2.receiver.offers.map (·.1) = triples := by
      rw [hall, List.map_append, List.map_map]
      exact List.map_id triples
    have hrun : run.1 = (offerAll triples (Visitor.start x).receiver).1 := by
      obtain ⟨hrun, -⟩ := (Export.visitAll_passes scopes x hempty).answer
      rw [hrun]
      rcases (offerAll triples (Visitor.start x).receiver).1 with e | _ <;> rfl
    rw [hfirst, hoffers, hrun]
    exact Watched.stopsAtRefusal_answers triples (Visitor.start x).receiver
  · intro call noted
    obtain ⟨hsame, hsink, hoffers⟩ := Export.perform_observed x hempty call
    refine ⟨hsame, hsink, fun o ho => ?_⟩
    rw [hoffers] at ho
    obtain ⟨scope, hcall, hcollected⟩ := Export.mem_due (Watched.mem_of_mem_answers ho)
    rw [htransform, hevaluate] at hcollected
    exact ⟨scope, hcall, hcollected⟩
  · intro scope before root after hroots
    rw [hroots, Export.visitRoots_append]
    rcases hbefore : Export.visitRoots scope 0 before x with ⟨e | _, y⟩
    · rfl
    · have hheld : x.buffer.toList.length ≤ x.exportLimit := by
        rw [hempty]
        exact Nat.zero_le _
      obtain ⟨-, hwithin⟩ := Export.length_buffer_of_visitRoots hheld hbefore
      rw [hlimit] at hwithin
      refine ⟨hwithin, ?_⟩
      rw [Nat.zero_add]
      rfl

/-- A store with room for one triple refuses the second of a batch. -/
theorem export_stops_at_refusal_inside_batch :
    let t : Transform := ⟨⟨Transform.defaultBase, .empty⟩,
      [.resource (.constantIri "s" none .cellValue) []
        [(⟨none, "p"⟩, some (.literal ⟨.cell (.ofColumn "name"), none, none⟩))]], Transform.currentVersion⟩
    let evaluate : Evaluator := fun _ _ _ => .ok (.array [.string "a", .string "b"])
    let link (o : String) : Triple := ⟨.iri "http://localhost:3333/s", "http://localhost:3333/p", .plain o⟩
    let x := (Export.new t evaluate {} .fresh (Store.empty (some 1))).afterCalls [.start, .flush]
    let observed : Export (Watched Store) := x.redirect ⟨x.receiver, []⟩
    let noted := visitAll [.row 0] observed
    let recorded := visitAll [.row 0] (⟨x, []⟩ : Export.Recorded Store)
    (∀ triple (g : Graph), (offer triple g).1 = .ok ()) ∧
      noted.2.receiver.offers = [(link "a", .ok ()), (link "b", .error (.sink "store closed"))] ∧
      (visitAll [.row 0] x).1 = .error (.sink "store closed") ∧ .finish ∉ recorded.2.calls := by
  intro t evaluate link x observed noted recorded
  have haccepts : ∀ triple (g : Graph), (offer triple g).1 = .ok () := fun _ _ => rfl
  obtain ⟨hvisits, -⟩ := export_stops_at_refusal haccepts t evaluate {} .fresh (Store.empty (some 1))
    Graph.empty [.start, .flush]
  obtain ⟨-, -, hstops, -, -, hfinish⟩ := hvisits [.row 0]
  -- the runs are the same as they stand, and must not be unfolded
  with_reducible change Watched.StopsAtRefusal _ noted.2.receiver.offers (visitAll [.row 0] x).1 at hstops
  with_reducible change .finish ∈ recorded.2.calls ↔ (visitAll [.row 0] x).1 = .ok () at hfinish
  have hparts : (x.transform.collectParts x.evaluate [.row 0] x.pass.blanks).1 = [[[link "a", link "b"]]] := by
    decide +kernel
  have hbatches : [[[link "a", link "b"]]].flatMap (Export.batches x.exportLimit) = [[link "a", link "b"]] := by
    have hcut : Export.cut x.exportLimit [] [[link "a", link "b"]] = [[[link "a", link "b"]]] := by
      decide +kernel
    rw [List.flatMap_singleton, Export.batches, hcut, List.map_singleton,
      Export.batch_of_pairwise (by decide +kernel)]
    rfl
  have hempty : observed.buffer.toList = [] := by
    decide +kernel
  -- the visit must not be run to state what it passes on
  with_reducible have hpasses := Export.visitAll_passes [.row 0] observed hempty
  change Export.Passes _ _ () ((x.transform.collectParts x.evaluate [.row 0] x.pass.blanks).1.flatMap
    (Export.batches x.exportLimit)) _ at hpasses
  rw [hparts, hbatches] at hpasses
  obtain ⟨-, -, hoffers⟩ := hpasses.offers
  have hanswers : (Visitor.start observed).receiver.offers ++
      Watched.answers [[link "a", link "b"]].flatten (Visitor.start observed).receiver.sink =
      [(link "a", .ok ()), (link "b", .error (.sink "store closed"))] := by
    decide +kernel
  rw [hanswers] at hoffers
  with_reducible change noted.2.receiver.offers = _ at hoffers
  have hrefused : ∃ o ∈ noted.2.receiver.offers, o.2 ≠ .ok () := by
    rw [hoffers]
    exact ⟨_, List.mem_cons_of_mem _ List.mem_cons_self, by simp⟩
  obtain ⟨accepted, refused, e, hoffered, -, hrun⟩ := hstops.of_refused hrefused
  have hlast := congrArg List.getLast? (hoffered.symm.trans hoffers)
  rw [List.getLast?_concat] at hlast
  obtain ⟨-, he⟩ := Prod.mk.inj (Option.some.inj hlast)
  rw [Except.error.inj he] at hrun
  have hopen : .finish ∉ recorded.2.calls := by
    intro hmem
    have hok := hfinish.1 hmem
    rw [hrun] at hok
    cases hok
  exact ⟨haccepts, hoffers, hrun, hopen⟩

end TableGraph
