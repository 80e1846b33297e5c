import TableGraph.Proofs.Emission.Agreement

/-!
# Refusals

A sink may refuse a triple. `Watched` puts an observer before a sink, who notes every triple offered to
it and the answer. An application of a transform is then compared with the one on a graph, which accepts
everything (`apply_stops_at_refusal`): the triples offered are the first ones that the graph collects,
up to the first that is refused, and its refusal is the only error.
-/

namespace TableGraph

open TripleSink (offer offerAll announce)

abbrev Answer := Except TransformError Unit

/-- A sink, with every triple offered to it so far and the answers. -/
structure Watched (σ : Type) where
  sink : σ
  offers : List (Triple × Answer)

namespace Watched

/-- An observer changes no answer. -/
instance [TripleSink σ] : TripleSink (Watched σ) where
  announce label ns w := { w with sink := announce label ns w.sink }
  offer t w :=
    let (answer, sink) := offer t w.sink
    (answer, ⟨sink, w.offers ++ [(t, answer)]⟩)

variable [TripleSink σ]

/-- The offers and answers when triples are offered in order, up to the first that is refused. -/
def answers : List Triple → σ → List (Triple × Answer)
  | [], _ => []
  | t :: rest, sink =>
    match offer t sink with
    | (.ok (), sink) => (t, .ok ()) :: answers rest sink
    | (.error e, _) => [(t, .error e)]

theorem offerAll_eq (triples : List Triple) (w : Watched σ) :
    offerAll triples w =
      ((offerAll triples w.sink).1,
        ⟨(offerAll triples w.sink).2, w.offers ++ answers triples w.sink⟩) := by
  induction triples generalizing w with
  | nil => simp [offerAll, answers]
  | cons t rest ih =>
    rw [offerAll, offerAll, answers]
    rcases h : offer t w.sink with ⟨e | _, sink⟩
    · simp [offer, h]
    · simp [offer, h, ih]

theorem answers_of_ok {triples : List Triple} {sink : σ} (h : (offerAll triples sink).1 = .ok ()) :
    answers triples sink = triples.map fun t => (t, .ok ()) := by
  induction triples generalizing sink with
  | nil => rfl
  | cons t rest ih =>
    rw [offerAll] at h
    rw [answers]
    rcases ho : offer t sink with ⟨e | _, sink'⟩
    · simp [ho] at h
    · simp only [ho] at h ⊢
      rw [ih h, List.map_cons]

theorem answers_of_error {triples : List Triple} {sink : σ} {e : TransformError}
    (h : (offerAll triples sink).1 = .error e) :
    ∃ accepted refused rest, triples = accepted ++ refused :: rest ∧
      answers triples sink = accepted.map (fun t => (t, .ok ())) ++ [(refused, .error e)] := by
  induction triples generalizing sink with
  | nil => simp [offerAll] at h
  | cons t rest ih =>
    rw [offerAll] at h
    rw [answers]
    rcases ho : offer t sink with ⟨e' | _, sink'⟩
    · simp only [ho, Except.error.injEq] at h ⊢
      exact ⟨[], t, rest, rfl, by rw [h]; rfl⟩
    · simp only [ho] at h ⊢
      obtain ⟨accepted, refused, more, hsplit, hanswers⟩ := ih h
      exact ⟨t :: accepted, refused, more, by rw [hsplit]; rfl, by rw [hanswers]; rfl⟩

end Watched

theorem TripleSink.offerAll_ok [TripleSink σ] (h : ∀ t (sink : σ), (offer t sink).1 = .ok ())
    (triples : List Triple) (sink : σ) : (offerAll triples sink).1 = .ok () := by
  induction triples generalizing sink with
  | nil => rfl
  | cons t rest ih =>
    have ht := h t sink
    rw [offerAll]
    rcases ho : offer t sink with ⟨e | _, sink'⟩
    · rw [ho] at ht
      cases ht
    · exact ih sink'

/-- **Only a refusal stops an application, and it stops it at once.** Next to an application to a graph,
which never fails, an application to any sink, observed or not: the sink is offered a prefix of what the
graph collects. If it accepts every offer, it was offered all of it, and the terms are returned;
otherwise the last offer is the first one refused, and the sink's own error is returned. -/
theorem apply_stops_at_refusal [TripleSink σ] (t : Transform) (evaluate : Evaluator) (scope : Scope)
    (blanks : BlankNodes) (sink : σ) :
    let free := t.apply evaluate scope ⟨Graph.empty, blanks⟩
    let run := t.apply evaluate scope ⟨sink, blanks⟩
    let observed := t.apply evaluate scope ⟨(⟨sink, []⟩ : Watched σ), blanks⟩
    let offers := observed.2.sink.offers
    ∃ terms, free.1 = .ok terms ∧
      (run.1 = observed.1 ∧ run.2.sink = observed.2.sink.sink) ∧
      offers.map (·.1) <+: free.2.sink.toList ∧
      ((∀ o ∈ offers, o.2 = .ok ()) →
        run.1 = .ok terms ∧ offers.map (·.1) = free.2.sink.toList) ∧
      ((∃ o ∈ offers, o.2 ≠ .ok ()) →
        ∃ accepted refused e, offers = accepted ++ [(refused, .error e)] ∧
          (∀ o ∈ accepted, o.2 = .ok ()) ∧ run.1 = .error e) ∧
      ((∀ triple (s : σ), (offer triple s).1 = .ok ()) → run.1 = .ok terms) := by
  intro free run observed offers
  have hsaid {τ : Type} [TripleSink τ] := t.apply_offers (σ := τ) evaluate scope blanks
  generalize (t.statements evaluate scope blanks).1 = said at hsaid
  have hfree := hsaid.graph Graph.empty
  obtain ⟨hrun, hsink⟩ := hsaid.result sink
  obtain ⟨hobserved, hwatched⟩ := hsaid.result (⟨sink, []⟩ : Watched σ)
  rw [Watched.offerAll_eq] at hobserved hwatched
  have hall : free.2.sink.toList = said.triples := by
    simp [free, hfree, Graph.empty, Graph.toList]
  have hoffers : offers = Watched.answers said.triples sink := by
    simp [offers, observed, hwatched]
  refine ⟨said.terms, congrArg Prod.fst hfree, ⟨hrun.trans hobserved.symm, ?_⟩, ?_⟩
  · rw [hsink, hwatched]
  rw [hall, hoffers]
  rcases hanswer : (offerAll said.triples sink).1 with e | _
  · obtain ⟨accepted, refused, rest, hsplit, hanswers⟩ := Watched.answers_of_error hanswer
    rw [hanswer] at hrun
    rw [hanswers]
    refine ⟨⟨rest, ?_⟩, fun h => ?_, fun _ => ?_, fun h => ?_⟩
    · simp [hsplit, Function.comp_def]
    · -- the refused offer is among the answers
      cases h (refused, .error e) (by simp)
    · exact ⟨_, refused, e, rfl, by simp, hrun⟩
    · rw [TripleSink.offerAll_ok h] at hanswer
      cases hanswer
  · rw [hanswer] at hrun
    rw [Watched.answers_of_ok hanswer]
    have hmap : (said.triples.map fun t => (t, (.ok () : Answer))).map (·.1) = said.triples := by
      simp [Function.comp_def]
    rw [hmap]
    refine ⟨List.prefix_refl _, fun _ => ⟨hrun, rfl⟩, ?_, fun _ => hrun⟩
    rintro ⟨o, ho, hrefused⟩
    obtain ⟨u, -, rfl⟩ := List.mem_map.1 ho
    exact absurd rfl hrefused

end TableGraph
