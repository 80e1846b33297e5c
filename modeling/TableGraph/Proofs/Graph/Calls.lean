import TableGraph.Proofs.Graph.Dedupe

/-!
# Calls to a graph

A graph is offered triples, sorted, freed of repeats and drained in any order. Until it is drained it holds
exactly the triples that it held or was offered (`mem_afterCalls`), and unless repeats are dropped as often
(`perm_afterCalls`). Two graphs of the same triples are the same list once repeats are dropped
(`toList_dedupe_eq_iff`).
-/

namespace TableGraph

namespace Graph

inductive Call
  | offer (triple : Triple)
  | sort
  | dedupe
  | drain
  deriving DecidableEq, Repr

/-- Make a call: the triples that it hands out, and the graph after it. -/
def perform (g : Graph) : Call → List Triple × Graph
  | .offer triple => ([], (TripleSink.offer triple g).2)
  | .sort => ([], g.sort)
  | .dedupe => ([], g.dedupe)
  | .drain => (g.toList, g.drained)

def afterCalls (g : Graph) (calls : List Call) : Graph :=
  calls.foldl (fun g call => (g.perform call).2) g

def Call.triple? : Call → Option Triple
  | .offer triple => some triple
  | .sort | .dedupe | .drain => none

/-- The triples that calls offer, in order. -/
def offered (calls : List Call) : List Triple :=
  calls.filterMap Call.triple?

variable {g other : Graph} {t : Triple}

/-! ## The order of triples -/

/-- A graph without repeats is told by its triples alone. -/
theorem toList_dedupe_eq_iff :
    g.dedupe.toList = other.dedupe.toList ↔ ∀ t, t ∈ g.toList ↔ t ∈ other.toList := by
  constructor
  · intro h t
    rw [← mem_dedupe, h, mem_dedupe]
  · intro h
    refine eq_of_ascending g.pairwise_dedupe other.pairwise_dedupe fun t => ?_
    rw [mem_dedupe, mem_dedupe]
    exact h t

/-! ## One call -/

theorem mem_perform {call : Call} (h : call ≠ .drain) :
    t ∈ (g.perform call).2.toList ↔ t ∈ g.toList ∨ call.triple? = some t := by
  cases call with
  | offer triple =>
    change t ∈ (g.push triple).toList ↔ _
    rw [toList_push, List.mem_append, List.mem_singleton, Call.triple?, Option.some_inj, eq_comm]
  | sort =>
    change t ∈ g.sort.toList ↔ _
    rw [g.perm_sort.mem_iff, Call.triple?]
    simp
  | dedupe =>
    change t ∈ g.dedupe.toList ↔ _
    rw [mem_dedupe, Call.triple?]
    simp
  | drain => exact absurd rfl h

theorem perm_perform {call : Call} (hdrain : call ≠ .drain) (hdedupe : call ≠ .dedupe) :
    (g.perform call).2.toList.Perm (g.toList ++ call.triple?.toList) := by
  cases call with
  | offer triple =>
    change (g.push triple).toList.Perm _
    rw [toList_push]
    exact .refl _
  | sort =>
    rw [Call.triple?, Option.toList_none, List.append_nil]
    exact g.perm_sort
  | dedupe => exact absurd rfl hdedupe
  | drain => exact absurd rfl hdrain

theorem prefixes_perform (g : Graph) (call : Call) : (g.perform call).2.prefixes = g.prefixes := by
  cases call <;> rfl

/-! ## Many calls -/

theorem afterCalls_cons (g : Graph) (call : Call) (rest : List Call) :
    g.afterCalls (call :: rest) = (g.perform call).2.afterCalls rest := rfl

theorem afterCalls_append (g : Graph) (before after : List Call) :
    g.afterCalls (before ++ after) = (g.afterCalls before).afterCalls after :=
  List.foldl_append

theorem mem_offered_cons {call : Call} {rest : List Call} :
    t ∈ offered (call :: rest) ↔ call.triple? = some t ∨ t ∈ offered rest := by
  simp only [offered, List.mem_filterMap, List.mem_cons, exists_eq_or_imp]

theorem mem_afterCalls {calls : List Call} (h : .drain ∉ calls) :
    t ∈ (g.afterCalls calls).toList ↔ t ∈ g.toList ∨ t ∈ offered calls := by
  induction calls generalizing g with
  | nil => simp [afterCalls, offered]
  | cons call rest ih =>
    rw [List.mem_cons, not_or] at h
    rw [afterCalls_cons, ih h.2, mem_perform (Ne.symm h.1), mem_offered_cons, or_assoc]

theorem perm_afterCalls {calls : List Call} (hdrain : .drain ∉ calls) (hdedupe : .dedupe ∉ calls) :
    (g.afterCalls calls).toList.Perm (g.toList ++ offered calls) := by
  induction calls generalizing g with
  | nil => simp [afterCalls, offered]
  | cons call rest ih =>
    rw [List.mem_cons, not_or] at hdrain hdedupe
    have hoffered : offered (call :: rest) = call.triple?.toList ++ offered rest := by
      cases call <;> rfl
    rw [afterCalls_cons, hoffered, ← List.append_assoc]
    exact (ih hdrain.2 hdedupe.2).trans
      ((perm_perform (Ne.symm hdrain.1) (Ne.symm hdedupe.1)).append_right _)

theorem prefixes_afterCalls (g : Graph) (calls : List Call) :
    (g.afterCalls calls).prefixes = g.prefixes := by
  induction calls generalizing g with
  | nil => rfl
  | cons call rest ih => rw [afterCalls_cons, ih, prefixes_perform]

theorem mem_afterCalls_drain (g : Graph) (before : List Call) {after : List Call} (h : .drain ∉ after) :
    t ∈ (g.afterCalls (before ++ .drain :: after)).toList ↔ t ∈ offered after := by
  have hempty : ((g.afterCalls before).perform .drain).2.toList = [] := rfl
  rw [afterCalls_append, afterCalls_cons, mem_afterCalls h, hempty]
  simp

end Graph

open TableGraph.Graph

/-- **Graphs hold what they were offered, and without repeats they are canonical.** Freed of repeats a graph
is the strictly ascending list of its triples, so two graphs hold the same triples exactly if they are the
same list then. Through any calls it holds the triples that it was offered since it was last drained,
and those it began with if it never was; sorting keeps how often each is held. Draining hands out all that
is held and leaves nothing. The prefixes stay through it all. -/
theorem deduped_graphs_are_canonical (g : Graph) :
    ((g.dedupe.toList.Pairwise fun a b => compare a b = .lt) ∧ ∀ t, t ∈ g.dedupe.toList ↔ t ∈ g.toList) ∧
    (∀ other : Graph,
      g.dedupe.toList = other.dedupe.toList ↔ ∀ t, t ∈ g.toList ↔ t ∈ other.toList) ∧
    ((g.sort.toList.Pairwise fun a b => (compare a b).isLE = true) ∧
      ∀ t, g.sort.toList.count t = g.toList.count t) ∧
    (∀ calls, (g.afterCalls calls).prefixes = g.prefixes) ∧
    (∀ calls, .drain ∉ calls → ∀ t, t ∈ (g.afterCalls calls).toList ↔ t ∈ g.toList ∨ t ∈ offered calls) ∧
    (∀ calls, .drain ∉ calls → .dedupe ∉ calls →
      (g.afterCalls calls).toList.Perm (g.toList ++ offered calls)) ∧
    ∀ before after, .drain ∉ after →
      let drained := (g.afterCalls before).perform .drain
      drained.1 = (g.afterCalls before).toList ∧ drained.2.toList = [] ∧
        ∀ t, t ∈ (g.afterCalls (before ++ .drain :: after)).toList ↔ t ∈ offered after := by
  refine ⟨⟨g.pairwise_dedupe, fun t => mem_dedupe⟩, fun other => toList_dedupe_eq_iff,
    ⟨g.pairwise_sort, fun t => g.perm_sort.count_eq t⟩, g.prefixes_afterCalls,
    fun calls h t => mem_afterCalls h, fun calls => perm_afterCalls, fun before after h => ?_⟩
  intro drained
  exact ⟨rfl, rfl, fun t => mem_afterCalls_drain g before h⟩

/-- What a graph held before it was drained is gone, and what it is offered twice after that is held once if
repeats are dropped. -/
theorem deduped_graphs_are_canonical_drained :
    let link (o : String) : Triple := ⟨.iri "http://localhost:3333/s", "http://localhost:3333/p", .plain o⟩
    let g := Graph.empty.afterCalls
      [.offer (link "old"), .drain, .offer (link "new"), .sort, .offer (link "new")]
    (∀ t, t ∈ g.toList ↔ t ∈ [link "new", link "new"]) ∧
      g.dedupe.toList = (Graph.empty.push (link "new")).dedupe.toList := by
  intro link g
  have hmem : ∀ t, t ∈ g.toList ↔ t ∈ [link "new", link "new"] :=
    ((deduped_graphs_are_canonical .empty).2.2.2.2.2.2 [.offer (link "old")]
      [.offer (link "new"), .sort, .offer (link "new")] (by simp)).2.2
  refine ⟨hmem, ((deduped_graphs_are_canonical g).2.1 _).2 fun t => ?_⟩
  rw [hmem, toList_push]
  simp [Graph.empty, toList]

end TableGraph
