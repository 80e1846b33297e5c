import TableGraph.Config
import TableGraph.Visitor.Basic

/-!
# Exports

An export holds the triples of a root back in a buffer and passes them on, in order and each once, when
there are more of them than the export limit, and at the end of every row or record. `written` counts
the triples of the batches that the receiver took as a whole.
-/

namespace TableGraph

/-- An export to a receiver: what it reads, the buffer with the blank nodes named so far, the receiver,
and the number of triples written. -/
structure Export (σ : Type) where
  transform : Transform
  evaluate : Evaluator
  exportLimit : Nat
  pass : Pass Graph
  receiver : σ
  written : Nat

namespace Export

variable {σ : Type} [TripleSink σ]

def new (t : Transform) (evaluate : Evaluator) (config : Config) (blanks : BlankNodes)
    (receiver : σ) : Export σ :=
  ⟨t, evaluate, config.exportLimit, ⟨.empty, blanks⟩, receiver, 0⟩

def buffer (x : Export σ) : Graph := x.pass.sink

/-- Pass on the triples held back, in order and each once. The buffer is empty afterwards, also when
the receiver refuses one. -/
def flush (x : Export σ) : Except TransformError Unit × Export σ :=
  if x.buffer.isEmpty then (.ok (), x)
  else
    let batch := x.buffer.dedupe.toList
    let x := { x with pass := { x.pass with sink := x.buffer.drained } }
    match TripleSink.offerAll batch x.receiver with
    | (.ok (), receiver) =>
      (.ok (), { x with receiver := receiver, written := x.written + batch.length })
    | (.error e, receiver) => (.error e, { x with receiver := receiver })

/-- Evaluate roots, counted from a number, and pass their triples on when there are too many. -/
def visitRoots (scope : Scope) : Nat → List Node → Export σ → Except TransformError Unit × Export σ
  | _, [], x => (.ok (), x)
  | number, root :: rest, x =>
    match (x.transform.emitRoot (σ := Graph) x.evaluate scope number root) x.pass with
    | (.error e, pass) => (.error e, { x with pass := pass })
    | (.ok _, pass) =>
      let x := { x with pass := pass }
      if x.exportLimit < x.buffer.size then
        match x.flush with
        | (.ok (), x) => visitRoots scope (number + 1) rest x
        | (.error e, x) => (.error e, x)
      else visitRoots scope (number + 1) rest x

/-- Evaluate the roots in a row or record, and pass on what is held back. -/
def visit (scope : Scope) (x : Export σ) : Except TransformError Bool × Export σ :=
  match visitRoots scope 0 x.transform.roots x with
  | (.error e, x) => (.error e, x)
  | (.ok (), x) =>
    match x.flush with
    | (.ok (), x) => (.ok false, x)
    | (.error e, x) => (.error e, x)

instance : Visitor (Export σ) where
  start x := { x with receiver := x.transform.announce x.receiver }
  visit := visit
  finish := flush

end Export

end TableGraph
