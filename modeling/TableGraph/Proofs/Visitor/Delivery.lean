import TableGraph.Proofs.Emission.Refusal
import TableGraph.Proofs.Visitor.Batches
import TableGraph.Visitor.Export

/-!
# What an export delivers

`x.Passes run a batches after` says what running a step of an export does, whatever its receiver
answers: it passes batches on, up to the first triple that is refused, and holds nothing back. Visits
of rows and records, one or many, pass on the batches of their parts (`visit_passes`,
`visitAll_passes`).
-/

namespace TableGraph.Export

open TripleSink (offer offerAll)

variable {σ : Type}

/-! ## Moving on -/

/-- The export with nothing held back, after its receiver and its blank nodes have moved on. -/
def moved (x : Export σ) (blanks : BlankNodes) (receiver : σ) (written : Nat) : Export σ :=
  { x with pass := ⟨x.buffer.drained, blanks⟩, receiver := receiver, written := written }

@[simp] theorem toList_buffer_moved (x : Export σ) (blanks : BlankNodes) (receiver : σ) (written : Nat) :
    (x.moved blanks receiver written).buffer.toList = [] := rfl

theorem moved_self {x : Export σ} (h : x.buffer.toList = []) :
    x.moved x.pass.blanks x.receiver x.written = x := by
  have hdrained : x.buffer.drained = x.buffer := by
    rw [Graph.drained, ← Array.toList_eq_nil_iff.1 h]
  rw [moved, hdrained]
  rfl

/-- The export with the triples of one more root held back. -/
def afterRoot (x : Export σ) (scope : Scope) (number : Nat) (root : Node) : Export σ :=
  let collected := x.transform.collectRoot x.evaluate scope number root x.pass.blanks
  { x with pass := ⟨{ x.buffer with triples := x.buffer.triples ++ collected.1.toArray }, collected.2⟩ }

theorem toList_buffer_afterRoot (x : Export σ) (scope : Scope) (number : Nat) (root : Node) :
    (x.afterRoot scope number root).buffer.toList =
      x.buffer.toList ++ (x.transform.collectRoot x.evaluate scope number root x.pass.blanks).1 := by
  simp [afterRoot, buffer, Graph.toList]

variable [TripleSink σ]

/-! ## Batches on their way -/

/-- Offer batches one after the other, up to the first triple that is refused, and count the triples of
the batches that were taken as a whole. -/
def deliver : List (List Triple) → σ → Nat → Except TransformError Unit × σ × Nat
  | [], receiver, written => (.ok (), receiver, written)
  | batch :: rest, receiver, written =>
    match offerAll batch receiver with
    | (.ok (), receiver) => deliver rest receiver (written + batch.length)
    | (.error e, receiver) => (.error e, receiver, written)

theorem deliver_append (first rest : List (List Triple)) (receiver : σ) (written : Nat) :
    deliver (first ++ rest) receiver written =
      match deliver first receiver written with
      | (.ok (), receiver, written) => deliver rest receiver written
      | (.error e, receiver, written) => (.error e, receiver, written) := by
  induction first generalizing receiver written with
  | nil => rfl
  | cons batch more ih =>
    rw [List.cons_append, deliver, deliver]
    rcases offerAll batch receiver with ⟨e | _, receiver⟩
    · rfl
    · exact ih receiver _

theorem deliver_eq_offerAll (batches : List (List Triple)) (receiver : σ) (written : Nat) :
    (deliver batches receiver written).1 = (offerAll batches.flatten receiver).1 ∧
      (deliver batches receiver written).2.1 = (offerAll batches.flatten receiver).2 := by
  induction batches generalizing receiver written with
  | nil => exact ⟨rfl, rfl⟩
  | cons batch rest ih =>
    rw [deliver, List.flatten_cons, TripleSink.offerAll_append]
    rcases offerAll batch receiver with ⟨e | _, receiver⟩
    · exact ⟨rfl, rfl⟩
    · exact ih receiver _

theorem written_deliver {batches : List (List Triple)} {receiver : σ} {written : Nat}
    (h : (deliver batches receiver written).1 = .ok ()) :
    (deliver batches receiver written).2.2 = written + batches.flatten.length := by
  induction batches generalizing receiver written with
  | nil => rfl
  | cons batch rest ih =>
    rw [deliver] at h ⊢
    rcases ho : offerAll batch receiver with ⟨e | _, receiver'⟩
    · rw [ho] at h
      cases h
    · rw [ho] at h
      rw [List.flatten_cons, List.length_append, ← Nat.add_assoc]
      exact ih h

/-! ## Steps -/

/-- Run one step, and the next where it returns. -/
def andThen (run : Except TransformError α × Export σ)
    (next : α → Export σ → Except TransformError β × Export σ) : Except TransformError β × Export σ :=
  match run with
  | (.ok a, x) => next a x
  | (.error e, x) => (.error e, x)

/-- What running a step does: it passes batches on, up to the first triple that is refused; if none is,
it returns `a`, and the blank nodes are `after`. -/
def Passes (x : Export σ) (run : Except TransformError α × Export σ) (a : α)
    (batches : List (List Triple)) (after : BlankNodes) : Prop :=
  match deliver batches x.receiver x.written with
  | (.ok (), receiver, written) => run = (.ok a, x.moved after receiver written)
  | (.error e, receiver, written) => ∃ left, run = (.error e, x.moved left receiver written)

namespace Passes

variable {x : Export σ}

theorem result {run : Except TransformError α × Export σ} {a : α} {batches : List (List Triple)}
    {after : BlankNodes} (h : x.Passes run a batches after) :
    run.1 = (deliver batches x.receiver x.written).1.map (fun _ => a) ∧
      ∃ blanks, run.2 = x.moved blanks (deliver batches x.receiver x.written).2.1
        (deliver batches x.receiver x.written).2.2 := by
  unfold Passes at h
  rcases hd : deliver batches x.receiver x.written with ⟨e | _, receiver, written⟩
  · rw [hd] at h
    obtain ⟨left, h⟩ := h
    exact ⟨by rw [h]; rfl, left, by rw [h]⟩
  · rw [hd] at h
    exact ⟨by rw [h]; rfl, after, by rw [h]⟩

theorem bind {run : Except TransformError α × Export σ}
    {next : α → Export σ → Except TransformError β × Export σ} {between after : BlankNodes} {a : α} {b : β}
    {first rest : List (List Triple)} (hrun : x.Passes run a first between)
    (hnext : ∀ receiver written, (x.moved between receiver written).Passes
      (next a (x.moved between receiver written)) b rest after) :
    x.Passes (andThen run next) b (first ++ rest) after := by
  unfold Passes at hrun ⊢
  rw [deliver_append]
  generalize deliver first x.receiver x.written = delivered at hrun
  obtain ⟨e | _, receiver, written⟩ := delivered
  · obtain ⟨left, rfl⟩ := hrun
    exact ⟨left, rfl⟩
  · subst hrun
    exact hnext receiver written

theorem map {run : Except TransformError α × Export σ} {a : α} {batches : List (List Triple)}
    {after : BlankNodes} (h : x.Passes run a batches after) (b : β) :
    x.Passes (run.1.map fun _ => b, run.2) b batches after := by
  unfold Passes at h ⊢
  generalize deliver batches x.receiver x.written = delivered at h
  obtain ⟨e | _, receiver, written⟩ := delivered
  · obtain ⟨left, rfl⟩ := h
    exact ⟨left, rfl⟩
  · subst h
    rfl

end Passes

/-! ## Flushes -/

theorem flush_of_empty {x : Export σ} (h : x.buffer.toList = []) : x.flush = (.ok (), x) := by
  have hempty : x.buffer.isEmpty = true := by
    rw [Graph.isEmpty, Array.isEmpty_iff]
    exact Array.toList_eq_nil_iff.1 h
  rw [flush, if_pos hempty]

theorem flush_passes (x : Export σ) {run : List (List Triple)} (h : x.buffer.toList = run.flatten) :
    x.Passes x.flush () [batch run] x.pass.blanks := by
  by_cases hrun : run.flatten = []
  · rw [hrun] at h
    rw [flush_of_empty h, batch_eq_nil hrun]
    change (_, x) = (_, x.moved x.pass.blanks x.receiver x.written)
    rw [moved_self h]
  · have hbatch : batch run = x.buffer.dedupe.toList := by
      rw [batch, ← h]
      rfl
    have hempty : ¬ x.buffer.isEmpty = true := by
      rw [Graph.isEmpty, Array.isEmpty_iff]
      intro hnone
      rw [← h, Graph.toList, hnone] at hrun
      exact hrun rfl
    rw [hbatch, flush, if_neg hempty]
    unfold Passes
    rw [deliver]
    dsimp only
    rcases offerAll x.buffer.dedupe.toList x.receiver with ⟨e | _, receiver⟩
    · exact ⟨x.pass.blanks, rfl⟩
    · rfl

/-! ## Visits -/

/-- Evaluate roots, counted from a number, and pass on what is held back behind the last. -/
def visitRootsAndFlush (scope : Scope) (number : Nat) (roots : List Node) (x : Export σ) :
    Except TransformError Unit × Export σ :=
  andThen (visitRoots scope number roots x) fun _ x => x.flush

theorem visit_eq (scope : Scope) (x : Export σ) :
    x.visit scope =
      ((x.visitRootsAndFlush scope 0 x.transform.roots).1.map (fun _ => false),
        (x.visitRootsAndFlush scope 0 x.transform.roots).2) := by
  rw [visit, visitRootsAndFlush]
  rcases visitRoots scope 0 x.transform.roots x with ⟨e | _, y⟩
  · rfl
  · dsimp only [andThen]
    rcases y.flush with ⟨e | _, z⟩ <;> rfl

theorem visitRoots_cons (scope : Scope) (number : Nat) (root : Node) (rest : List Node) (x : Export σ) :
    visitRoots scope number (root :: rest) x =
      if x.exportLimit < (x.afterRoot scope number root).buffer.toList.length then
        andThen (x.afterRoot scope number root).flush fun _ => visitRoots scope (number + 1) rest
      else visitRoots scope (number + 1) rest (x.afterRoot scope number root) := by
  obtain ⟨terms, hroot⟩ :=
    x.transform.emitRoot_graph x.evaluate scope number root x.pass.sink x.pass.blanks
  let y := x.afterRoot scope number root
  have hpass : x.transform.emitRoot x.evaluate scope number root x.pass = (.ok terms, y.pass) := hroot
  have hheld : { x with pass := y.pass } = y := rfl
  rw [visitRoots, hpass]
  by_cases hlimit : x.exportLimit < y.buffer.toList.length
  · refine (if_pos hlimit).trans (Eq.trans ?_ (if_pos hlimit).symm)
    rw [hheld]
    rcases y.flush with ⟨e | _, z⟩ <;> rfl
  · exact (if_neg hlimit).trans (if_neg hlimit).symm

theorem visitRoots_append (scope : Scope) (number : Nat) (before rest : List Node) (x : Export σ) :
    visitRoots scope number (before ++ rest) x =
      andThen (visitRoots scope number before x) fun _ =>
        visitRoots scope (number + before.length) rest := by
  induction before generalizing number x with
  | nil => rfl
  | cons root more ih =>
    have hnumber : number + (root :: more).length = number + 1 + more.length := by
      rw [List.length_cons]
      omega
    rw [List.cons_append, visitRoots_cons, visitRoots_cons, hnumber]
    split
    · rcases (x.afterRoot scope number root).flush with ⟨e | _, y⟩
      · rfl
      · exact ih (number + 1) y
    · exact ih (number + 1) (x.afterRoot scope number root)

theorem visitRootsAndFlush_cons (scope : Scope) (number : Nat) (root : Node) (rest : List Node)
    (x : Export σ) :
    visitRootsAndFlush scope number (root :: rest) x =
      if x.exportLimit < (x.afterRoot scope number root).buffer.toList.length then
        andThen (x.afterRoot scope number root).flush fun _ => visitRootsAndFlush scope (number + 1) rest
      else (x.afterRoot scope number root).visitRootsAndFlush scope (number + 1) rest := by
  rw [visitRootsAndFlush, visitRoots_cons]
  by_cases hlimit : x.exportLimit < (x.afterRoot scope number root).buffer.toList.length
  · rw [if_pos hlimit, if_pos hlimit]
    rcases (x.afterRoot scope number root).flush with ⟨e | _, y⟩ <;> rfl
  · rw [if_neg hlimit, if_neg hlimit]
    rfl

/-- Roots behind a run that is held back pass on the batches that the limit cuts. -/
theorem visitRootsAndFlush_passes (scope : Scope) (number : Nat) (roots : List Node) (run : List (List Triple))
    (x : Export σ) (h : x.buffer.toList = run.flatten) :
    let parts := x.transform.collectRoots x.evaluate scope number roots x.pass.blanks
    x.Passes (x.visitRootsAndFlush scope number roots) ()
      ((cut x.exportLimit run parts.1).map batch) parts.2 := by
  intro parts
  induction roots generalizing number x run with
  | nil =>
    have hflush := flush_passes x h
    change x.Passes x.flush () ((cut x.exportLimit run []).map batch) x.pass.blanks
    rw [cut]
    split
    · rename_i hempty
      obtain rfl := List.isEmpty_iff.1 hempty
      rw [batch_eq_nil rfl] at hflush
      exact hflush
    · exact hflush
  | cons root rest ih =>
    let y := x.afterRoot scope number root
    let part := (x.transform.collectRoot x.evaluate scope number root x.pass.blanks).1
    let more := x.transform.collectRoots x.evaluate scope (number + 1) rest y.pass.blanks
    have hheld : y.buffer.toList = (run ++ [part]).flatten := by
      rw [toList_buffer_afterRoot, h, List.flatten_append, List.flatten_singleton]
    -- the export with the root's triples held back moves on where the one without them does
    change y.Passes (x.visitRootsAndFlush scope number (root :: rest)) ()
      ((cut x.exportLimit run (part :: more.1)).map batch) more.2
    rw [visitRootsAndFlush_cons, cut, hheld]
    split
    · have hflush := y.flush_passes hheld
      exact hflush.bind fun receiver written =>
        ih (number + 1) [] (y.moved y.pass.blanks receiver written) rfl
    · exact ih (number + 1) (run ++ [part]) y hheld

theorem visit_passes (scope : Scope) (x : Export σ) (h : x.buffer.toList = []) :
    let parts := x.transform.collectRoots x.evaluate scope 0 x.transform.roots x.pass.blanks
    x.Passes (x.visit scope) false (batches x.exportLimit parts.1) parts.2 := by
  intro parts
  rw [visit_eq, batches]
  have hroots := visitRootsAndFlush_passes scope 0 x.transform.roots [] x h
  exact hroots.map false

theorem visitEach_cons (scope : Scope) (rest : List Scope) (x : Export σ) :
    Visitor.visitEach (scope :: rest) x =
      andThen (x.visit scope) fun stop y => if stop then (.ok (), y) else Visitor.visitEach rest y := by
  have hvisit : Visitor.visit scope x = x.visit scope := rfl
  rw [Visitor.visitEach, hvisit]
  rcases x.visit scope with ⟨e | stop, y⟩
  · rfl
  · cases stop <;> rfl

theorem visitEach_passes (scopes : List Scope) (x : Export σ) (h : x.buffer.toList = []) :
    let parts := x.transform.collectParts x.evaluate scopes x.pass.blanks
    x.Passes (Visitor.visitEach scopes x) () (parts.1.flatMap (batches x.exportLimit)) parts.2 := by
  induction scopes generalizing x with
  | nil =>
    change (_, x) = (_, x.moved x.pass.blanks x.receiver x.written)
    rw [moved_self h]
  | cons scope rest ih =>
    let first := x.transform.collectRoots x.evaluate scope 0 x.transform.roots x.pass.blanks
    let more := x.transform.collectParts x.evaluate rest first.2
    have hrest (receiver : σ) (written : Nat) : (x.moved first.2 receiver written).Passes
        (Visitor.visitEach rest (x.moved first.2 receiver written)) ()
        (more.1.flatMap (batches x.exportLimit)) more.2 :=
      ih (x.moved first.2 receiver written) (toList_buffer_moved x first.2 receiver written)
    rw [Transform.collectParts_cons, visitEach_cons]
    exact (visit_passes scope x h).bind hrest

theorem visitAll_passes (scopes : List Scope) (x : Export σ) (h : x.buffer.toList = []) :
    let parts := x.transform.collectParts x.evaluate scopes x.pass.blanks
    (Visitor.start x).Passes (Visitor.visitAll scopes x) () (parts.1.flatMap (batches x.exportLimit))
      parts.2 := by
  intro parts
  have heach := visitEach_passes scopes (Visitor.start x) h
  have hfinish (receiver : σ) (written : Nat) :
      ((Visitor.start x).moved parts.2 receiver written).Passes
        ((Visitor.start x).moved parts.2 receiver written).flush () [] parts.2 := by
    rw [flush_of_empty (toList_buffer_moved _ _ _ _)]
    rfl
  have hall : Visitor.visitAll scopes x =
      andThen (Visitor.visitEach scopes (Visitor.start x)) fun _ y => y.flush := by
    rw [Visitor.visitAll]
    rcases Visitor.visitEach scopes (Visitor.start x) with ⟨e | _, y⟩ <;> rfl
  rw [hall, ← List.append_nil (parts.1.flatMap _)]
  exact heach.bind hfinish

/-! ## Receivers -/

theorem Passes.answer {x : Export σ} {run : Except TransformError α × Export σ} {a : α}
    {batches : List (List Triple)} {after : BlankNodes} (h : x.Passes run a batches after) :
    run.1 = (offerAll batches.flatten x.receiver).1.map (fun _ => a) ∧
      run.2.receiver = (offerAll batches.flatten x.receiver).2 := by
  obtain ⟨hresult, blanks, hmoved⟩ := h.result
  obtain ⟨hdelivered, hreceiver⟩ := deliver_eq_offerAll batches x.receiver x.written
  refine ⟨by rw [hresult, hdelivered], ?_⟩
  rw [hmoved, moved, hreceiver]

theorem offers_announce (t : Transform) (w : Watched σ) : (t.announce w).offers = w.offers := by
  unfold Transform.announce TripleSink.announceAll
  induction t.prefixMap generalizing w with
  | nil => rfl
  | cons entry rest ih => exact ih (TripleSink.announce entry.1 entry.2 w)

theorem sink_announce (t : Transform) (w : Watched σ) : (t.announce w).sink = t.announce w.sink := by
  unfold Transform.announce TripleSink.announceAll
  induction t.prefixMap generalizing w with
  | nil => rfl
  | cons entry rest ih => exact ih (TripleSink.announce entry.1 entry.2 w)

/-- An observed receiver notes the answers to the triples of the batches, up to the first refusal, which
is the error that is returned. -/
theorem Passes.offers {x : Export (Watched σ)} {run : Except TransformError α × Export (Watched σ)} {a : α}
    {batches : List (List Triple)} {after : BlankNodes} (h : x.Passes run a batches after) :
    run.1 = (offerAll batches.flatten x.receiver.sink).1.map (fun _ => a) ∧
      run.2.receiver.sink = (offerAll batches.flatten x.receiver.sink).2 ∧
      run.2.receiver.offers = x.receiver.offers ++ Watched.answers batches.flatten x.receiver.sink := by
  obtain ⟨hresult, hreceiver⟩ := h.answer
  rw [Watched.offerAll_eq] at hresult hreceiver
  exact ⟨hresult, by rw [hreceiver], by rw [hreceiver]⟩

end TableGraph.Export
