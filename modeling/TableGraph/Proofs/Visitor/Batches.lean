import Mathlib.Data.List.Forall2
import TableGraph.Proofs.Emission.RowsAndRecords
import TableGraph.Proofs.Graph.Dedupe

/-!
# Batches of triples

The triples of a row or record come in parts, one from each root. A limit cuts the parts into runs: a
run ends when more triples have come together than the limit allows, or with the last part. The batch
of a run is what it comes to in order, each triple once.
-/

namespace TableGraph

/-! ## Parts -/

namespace Transform

/-- Evaluate the root with a number, and collect its triples. -/
def collectRoot (t : Transform) (evaluate : Evaluator) (scope : Scope) (number : Nat) (root : Node) :
    StateM BlankNodes (List Triple) := fun blanks =>
  let pass := (t.emitRoot evaluate scope number root ⟨Graph.empty, blanks⟩).2
  (pass.sink.toList, pass.blanks)

/-- Evaluate roots, counted from a number, and collect the triples of each. -/
def collectRoots (t : Transform) (evaluate : Evaluator) (scope : Scope) :
    Nat → List Node → StateM BlankNodes (List (List Triple))
  | _, [] => pure []
  | number, root :: rest => do
    let part ← t.collectRoot evaluate scope number root
    let more ← t.collectRoots evaluate scope (number + 1) rest
    return part :: more

/-- Apply a transform to scopes one after the other, and collect the triples of each root in each. -/
def collectParts (t : Transform) (evaluate : Evaluator) (scopes : List Scope) :
    StateM BlankNodes (List (List (List Triple))) :=
  scopes.mapM fun scope => t.collectRoots evaluate scope 0 t.roots

variable (t : Transform) (evaluate : Evaluator) (scope : Scope)

theorem collectRoot_eq (number : Nat) (root : Node) :
    t.collectRoot evaluate scope number root =
      (do return (← root.statements ⟨t.naming, evaluate⟩ [number] scope).triples) := by
  funext blanks
  have h := (Node.emit_scope ⟨t.naming, evaluate⟩ [number] root scope blanks).graph Graph.empty
  rw [collectRoot, emitRoot, h]
  simp [Graph.toList, Graph.empty]
  rfl

theorem emitRoot_graph (number : Nat) (root : Node) (g : Graph) (blanks : BlankNodes) :
    ∃ terms, t.emitRoot evaluate scope number root ⟨g, blanks⟩ =
      (.ok terms,
        ⟨{ g with triples := g.triples ++ (t.collectRoot evaluate scope number root blanks).1.toArray },
          (t.collectRoot evaluate scope number root blanks).2⟩) := by
  have h := (Node.emit_scope ⟨t.naming, evaluate⟩ [number] root scope blanks).graph g
  rw [collectRoot_eq]
  exact ⟨_, h⟩

/-- The parts of a row or record are what the whole transform emits there. -/
theorem collect_eq_flatten :
    t.collect evaluate scope = (do return (← t.collectRoots evaluate scope 0 t.roots).flatten) := by
  have hroots (number : Nat) (roots : List Node) :
      (do return (← t.collectRoots evaluate scope number roots).flatten) =
        (do return (← rootsInScope ⟨t.naming, evaluate⟩ (Node.termsInRow ⟨t.naming, evaluate⟩) scope
          number roots).triples : StateM BlankNodes (List Triple)) := by
    induction roots generalizing number with
    | nil => rfl
    | cons root rest ih =>
      rw [collectRoots, rootsInScope, collectRoot_eq]
      funext blanks
      have hrest := congrFun (ih (number + 1))
        (root.statements ⟨t.naming, evaluate⟩ [number] scope blanks).2
      obtain ⟨hfirst, hsecond⟩ := Prod.mk.inj hrest
      exact Prod.ext (congrArg (_ ++ ·) hfirst) hsecond
  rw [collect_eq, statements, hroots]

theorem apply_graph (g : Graph) (blanks : BlankNodes) :
    let parts := t.collectRoots evaluate scope 0 t.roots blanks
    ∃ terms, t.apply evaluate scope ⟨g, blanks⟩ =
      (.ok terms, ⟨{ g with triples := g.triples ++ parts.1.flatten.toArray }, parts.2⟩) := by
  intro parts
  have happly := (t.apply_offers evaluate scope blanks).graph g
  have hcollect := (t.collect_eq evaluate scope).symm.trans (t.collect_eq_flatten evaluate scope)
  have hparts : ((t.statements evaluate scope blanks).1.triples, (t.statements evaluate scope blanks).2) =
      (parts.1.flatten, parts.2) :=
    congrFun hcollect blanks
  obtain ⟨htriples, hblanks⟩ := Prod.mk.inj hparts
  rw [htriples, hblanks] at happly
  exact ⟨_, happly⟩

theorem collectParts_nil (blanks : BlankNodes) : t.collectParts evaluate [] blanks = ([], blanks) := rfl

theorem collectParts_cons (rest : List Scope) (blanks : BlankNodes) :
    t.collectParts evaluate (scope :: rest) blanks =
      let first := t.collectRoots evaluate scope 0 t.roots blanks
      let more := t.collectParts evaluate rest first.2
      (first.1 :: more.1, more.2) := by
  rw [collectParts, List.mapM_cons]
  rfl

theorem session_cons (rest : List Scope) (blanks : BlankNodes) :
    t.session evaluate (scope :: rest) blanks =
      let first := t.collect evaluate scope blanks
      let more := t.session evaluate rest first.2
      ((scope, first.1) :: more.1, more.2) := by
  rw [session, List.mapM_cons]
  rfl

theorem session_eq_parts (scopes : List Scope) (blanks : BlankNodes) :
    (t.session evaluate scopes blanks).1.map (·.2) =
        (t.collectParts evaluate scopes blanks).1.map List.flatten ∧
      (t.session evaluate scopes blanks).2 = (t.collectParts evaluate scopes blanks).2 := by
  induction scopes generalizing blanks with
  | nil => exact ⟨rfl, rfl⟩
  | cons scope rest ih =>
    rw [session_cons, collectParts_cons, collect_eq_flatten]
    obtain ⟨htriples, hblanks⟩ := ih (t.collectRoots evaluate scope 0 t.roots blanks).2
    exact ⟨congrArg ((t.collectRoots evaluate scope 0 t.roots blanks).1.flatten :: ·) htriples, hblanks⟩

theorem mem_session_iff_parts {scopes : List Scope} {blanks : BlankNodes} {x : Triple} :
    (∃ emitted ∈ (t.session evaluate scopes blanks).1, x ∈ emitted.2) ↔
      ∃ parts ∈ (t.collectParts evaluate scopes blanks).1, x ∈ parts.flatten := by
  have hmap := (t.session_eq_parts evaluate scopes blanks).1
  rw [← List.mem_flatMap, ← List.mem_flatMap, List.flatMap_def, List.flatMap_def, hmap]

end Transform

/-! ## Runs -/

namespace Export

/-- Cut parts into runs by a limit, behind a run that has come together already. -/
def cut (limit : Nat) (run : List (List Triple)) : List (List Triple) → List (List (List Triple))
  | [] => if run.isEmpty then [] else [run]
  | part :: rest =>
    let run := run ++ [part]
    if limit < run.flatten.length then run :: cut limit [] rest else cut limit run rest

/-- Runs of parts, one after the other, each of which goes beyond a limit with its last part and not
before; the last run may stay within it. -/
structure IsCut (limit : Nat) (parts : List (List Triple)) (runs : List (List (List Triple))) : Prop where
  flatten_eq : runs.flatten = parts
  ne_nil : ∀ run ∈ runs, run ≠ []
  within : ∀ run ∈ runs, ∀ shorter, shorter <+: run → shorter ≠ run → shorter.flatten.length ≤ limit
  beyond : ∀ run ∈ runs.dropLast, limit < run.flatten.length

theorem length_flatten_le {α : Type} {shorter run : List (List α)} (h : shorter <+: run) :
    shorter.flatten.length ≤ run.flatten.length := by
  obtain ⟨rest, rfl⟩ := h
  rw [List.flatten_append, List.length_append]
  omega

namespace IsCut

variable {limit : Nat} {run rest : List (List Triple)} {runs : List (List (List Triple))}

theorem nil : IsCut limit [] [] :=
  ⟨rfl, List.forall_mem_nil _, List.forall_mem_nil _, List.forall_mem_nil _⟩

theorem singleton (hne : run ≠ []) (hwithin : run.flatten.length ≤ limit) : IsCut limit run [run] where
  flatten_eq := List.flatten_singleton
  ne_nil other hother := by
    obtain rfl := List.mem_singleton.1 hother
    exact hne
  within other hother shorter hshorter _ := by
    obtain rfl := List.mem_singleton.1 hother
    exact Nat.le_trans (length_flatten_le hshorter) hwithin
  beyond := List.forall_mem_nil _

theorem cons {part : List Triple} (hwithin : run.flatten.length ≤ limit)
    (hbeyond : limit < (run ++ [part]).flatten.length) (hrest : IsCut limit rest runs) :
    IsCut limit (run ++ part :: rest) ((run ++ [part]) :: runs) where
  flatten_eq := by
    rw [List.flatten_cons, hrest.flatten_eq, List.append_assoc]
    rfl
  ne_nil other hother := by
    rcases List.mem_cons.1 hother with rfl | hother
    · exact List.append_ne_nil_of_right_ne_nil run (List.cons_ne_nil part [])
    · exact hrest.ne_nil other hother
  within other hother shorter hshorter hne := by
    rcases List.mem_cons.1 hother with rfl | hother
    · rcases List.prefix_concat_iff.1 hshorter with heq | hshorter
      · exact absurd heq hne
      · exact Nat.le_trans (length_flatten_le hshorter) hwithin
    · exact hrest.within other hother shorter hshorter hne
  beyond other hother := by
    cases runs with
    | nil => cases hother
    | cons next more =>
      rw [List.dropLast_cons_of_ne_nil (List.cons_ne_nil next more)] at hother
      rcases List.mem_cons.1 hother with rfl | hother
      · exact hbeyond
      · exact hrest.beyond other hother

end IsCut

theorem isCut_cut_append (limit : Nat) (run parts : List (List Triple))
    (hrun : run.flatten.length ≤ limit) : IsCut limit (run ++ parts) (cut limit run parts) := by
  induction parts generalizing run with
  | nil =>
    rw [cut, List.append_nil]
    by_cases hempty : run = []
    · subst hempty
      exact .nil
    · rw [if_neg fun h => hempty (List.isEmpty_iff.1 h)]
      exact .singleton hempty hrun
  | cons part rest ih =>
    rw [cut]
    by_cases hbeyond : limit < (run ++ [part]).flatten.length
    · rw [if_pos hbeyond]
      exact .cons hrun hbeyond (ih [] (Nat.zero_le limit))
    · rw [if_neg hbeyond, List.append_cons]
      exact ih (run ++ [part]) (Nat.le_of_not_lt hbeyond)

theorem isCut_cut (limit : Nat) (parts : List (List Triple)) : IsCut limit parts (cut limit [] parts) :=
  isCut_cut_append limit [] parts (Nat.zero_le limit)

/-! ## Batches -/

/-- The triples of a run in order, each once. -/
def batch (run : List (List Triple)) : List Triple :=
  (Graph.dedupe ⟨run.flatten.toArray, []⟩).toList

/-- The strictly ascending list of some triples. -/
structure IsBatch (triples batch : List Triple) : Prop where
  ascending : batch.Pairwise fun a b => compare a b = .lt
  mem_iff : ∀ x, x ∈ batch ↔ x ∈ triples

theorem isBatch_batch (run : List (List Triple)) : IsBatch run.flatten (batch run) where
  ascending := Graph.pairwise_dedupe _
  mem_iff x := by
    rw [batch, Graph.mem_dedupe, Graph.toList]

theorem batch_of_pairwise {run : List (List Triple)}
    (h : run.flatten.Pairwise fun a b => compare a b = .lt) : batch run = run.flatten := by
  rw [batch, Graph.dedupe_of_pairwise (g := ⟨run.flatten.toArray, []⟩) h, Graph.toList]

theorem batch_eq_nil {run : List (List Triple)} (h : run.flatten = []) : batch run = [] := by
  apply List.eq_nil_iff_forall_not_mem.2
  intro x hx
  rw [(isBatch_batch run).mem_iff, h] at hx
  cases hx

theorem IsBatch.nodup {triples batch : List Triple} (h : IsBatch triples batch) : batch.Nodup :=
  Graph.nodup_of_ascending h.ascending

/-- The batches of the parts of a row or record, cut by a limit. -/
def batches (limit : Nat) (parts : List (List Triple)) : List (List Triple) :=
  (cut limit [] parts).map batch

/-- Batches of parts: the parts are cut into runs by a limit, and every run comes to a batch. -/
def IsBatching (limit : Nat) (parts batches : List (List Triple)) : Prop :=
  ∃ runs, IsCut limit parts runs ∧ List.Forall₂ (fun run batch => IsBatch run.flatten batch) runs batches

theorem isBatching_batches (limit : Nat) (parts : List (List Triple)) :
    IsBatching limit parts (batches limit parts) := by
  refine ⟨cut limit [] parts, isCut_cut limit parts, ?_⟩
  rw [batches, List.forall₂_map_right_iff, List.forall₂_same]
  exact fun run _ => isBatch_batch run

theorem mem_flatten_batches {limit : Nat} {parts : List (List Triple)} {x : Triple} :
    x ∈ (batches limit parts).flatten ↔ x ∈ parts.flatten := by
  conv_rhs => rw [← (isCut_cut limit parts).flatten_eq]
  simp only [batches, List.mem_flatten, List.mem_map]
  constructor
  · rintro ⟨_, ⟨run, hrun, rfl⟩, hx⟩
    rw [(isBatch_batch run).mem_iff, List.mem_flatten] at hx
    obtain ⟨part, hpart, hx⟩ := hx
    exact ⟨part, ⟨run, hrun, hpart⟩, hx⟩
  · rintro ⟨part, ⟨run, hrun, hpart⟩, hx⟩
    refine ⟨batch run, ⟨run, hrun, rfl⟩, ?_⟩
    rw [(isBatch_batch run).mem_iff]
    exact List.mem_flatten.2 ⟨part, hpart, hx⟩

theorem mem_flatMap_batches {limit : Nat} {units : List (List (List Triple))} {x : Triple} :
    x ∈ (units.flatMap (batches limit)).flatten ↔ ∃ parts ∈ units, x ∈ parts.flatten := by
  rw [List.flatMap_def, List.flatten_flatten, List.map_map, ← List.flatMap_def, List.mem_flatMap]
  simp only [Function.comp_apply, mem_flatten_batches]

end Export

end TableGraph
